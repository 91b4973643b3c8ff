import WarpPlus.Semantics.Machine
import WarpPlus.Semantics.Window
import WarpPlus.Semantics.Search
import WarpPlus.Semantics.Bits
import WarpPlus.Semantics.Segments
import WarpPlus.Semantics.Stream
import WarpPlus.Semantics.Decimal
import WarpPlus.Semantics.HostPort
import WarpPlus.Semantics.NetIP
import WarpPlus.Semantics.IPText
import WarpPlus.Semantics.IPRoundTrip
import WarpPlus.Semantics.Slice
import WarpPlus.Replay.Filter
import WarpPlus.Replay.Refinement
import WarpPlus.Scanner.Queue
import WarpPlus.Scanner.Iterator
import WarpPlus.IPUtils.RandomIP
import WarpPlus.Conn.Coalesce
import WarpPlus.Conn.Control
import WarpPlus.Conn.Split
import WarpPlus.Device.IndexTable
import WarpPlus.Device.Noise
import WarpPlus.Device.Routing
import WarpPlus.Device.Cookie
import WarpPlus.Device.AllowedIPs
import WarpPlus.Device.AllowedIPsTrie
import WarpPlus.Device.AllowedIPsTable
import WarpPlus.Device.Receive
import WarpPlus.Device.InitiationReplay
import WarpPlus.Proxy.Socks4
import WarpPlus.Proxy.Http
import WarpPlus.Proxy.Socks5.Address
import WarpPlus.Proxy.Socks5.Associate
import WarpPlus.Tai64n.Stamp
import WarpPlus.Tun.Checksum
import WarpPlus.Semantics.Base64
import WarpPlus.Warp.Identity
import WarpPlus.Ratelimiter.Allow
import WarpPlus.Device.Send
import WarpPlus.Tun.Virtio
import WarpPlus.Semantics.SliceMap
import WarpPlus.Tun.Gro
import WarpPlus.Tun.GroFrame
import WarpPlus.Semantics.Crypto
import WarpPlus.Device.NoiseProtocol
import WarpPlus.Semantics.Hex
import WarpPlus.Semantics.Lines
import WarpPlus.Device.Uapi
import WarpPlus.Device.UapiInvariant
import WarpPlus.App.Establish
import WarpPlus.App.Tunnel
