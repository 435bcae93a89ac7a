import SingBox.Adapter.DefaultMember
import SingBox.Awg.Owner
import SingBox.Cachefile.Barrier
import SingBox.Cachefile.Rdrc
import SingBox.ClashApi.ManageUsers
import SingBox.ClashApi.Ports
import SingBox.ClashApi.Retry
import SingBox.ClashApi.Unedited
import SingBox.ClashApi.UserStats
import SingBox.Dns.ClientSubnet
import SingBox.Dns.ConnPoolOrdered
import SingBox.Dns.ConnPoolShared
import SingBox.Dns.Local
import SingBox.Dns.Mode
import SingBox.Dns.Multi
import SingBox.Dns.RouteOptions
import SingBox.Dns.Stores
import SingBox.Dns.Transparent
import SingBox.Dns.Udp
import SingBox.FakeIP.Reset
import SingBox.FakeIP.SavedCursor
import SingBox.Group.Balancer
import SingBox.Group.Selector
import SingBox.Hysteria2.Realm
import SingBox.Ja3.Parser
import SingBox.Monitoring.History
import SingBox.Monitoring.OutboundMonitoring
import SingBox.Reload.Attribution
import SingBox.Route.Conn
import SingBox.Route.Flow
import SingBox.Route.Inherited
import SingBox.Route.PreMatch
import SingBox.Route.Replay
import SingBox.Route.RuleSetRemote
import SingBox.Sniff.Bittorrent
import SingBox.Sniff.Bounds
import SingBox.Sniff.Reassembly
import SingBox.Srs.Reference
import SingBox.Ssmapi.User
import SingBox.TlsFragment.Conn
import SingBox.Vless.Xor
import SingBox.Websocket.Early
import SingBox.Xhttp.Mux
