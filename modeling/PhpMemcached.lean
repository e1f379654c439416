import PhpMemcached.Lib.Prog
import PhpMemcached.Lib.Cmd
import PhpMemcached.Lib.Ascii
import PhpMemcached.Status
import PhpMemcached.Value
import PhpMemcached.Flags
import PhpMemcached.Client
import PhpMemcached.GFmt
import PhpMemcached.Encode
import PhpMemcached.Keys
import PhpMemcached.Write
import PhpMemcached.Routing
import PhpMemcached.Decode
import PhpMemcached.Read
import PhpMemcached.Ops
import PhpMemcached.SetMulti
import PhpMemcached.Passive
import PhpMemcached.KeySafety
import PhpMemcached.Pool
import PhpMemcached.PoolRead
import PhpMemcached.ReadThrough
import PhpMemcached.Results
import PhpMemcached.Delivery
import PhpMemcached.Rejected
import PhpMemcached.Decompress
import PhpMemcached.CasToken
import PhpMemcached.Append
import PhpMemcached.Lifecycle
import PhpMemcached.Updates
import PhpMemcached.ExactlyOnce
import PhpMemcached.RoundTrip
import PhpMemcached.TokenTrip
import PhpMemcached.Serialized
import PhpMemcached.Lib.Rely
import PhpMemcached.Session.Model
import PhpMemcached.Session.Server
import PhpMemcached.Session.Durability
import PhpMemcached.Session.Handles
import PhpMemcached.Session.Reopen
import PhpMemcached.Session.Sound
import PhpMemcached.Session.Lock
import PhpMemcached.Session.Bookkeeping
import PhpMemcached.Session.Ownership
import PhpMemcached.GetMulti
import PhpMemcached.KeyTrip
import PhpMemcached.Counters
import PhpMemcached.Failures
import PhpMemcached.Admin
import PhpMemcached.Options
import PhpMemcached.Doubles
import PhpMemcached.Server.Model
import PhpMemcached.Server.Echo
import PhpMemcached.Server.Cas
import PhpMemcached.Server.Callbacks
import PhpMemcached.Lib.Trace
import PhpMemcached.Server.EventLoop
import PhpMemcached.SizeLimit
import PhpMemcached.Shrink
import PhpMemcached.DoubleText
import PhpMemcached.DoubleTrip
import PhpMemcached.Lib.Backoff
import PhpMemcached.Session.LockWaits
import PhpMemcached.Buckets
import PhpMemcached.Session.Freed
import PhpMemcached.Session.Reserve
import PhpMemcached.FastLz
import PhpMemcached.Session.Sections
import PhpMemcached.Lib.Lz
import PhpMemcached.FastLzUnpack
import PhpMemcached.FastLzTrip
import PhpMemcached.FastLzCodec
import PhpMemcached.Lib.Chronicle
import PhpMemcached.Optimistic
import PhpMemcached.Lib.Linear
import PhpMemcached.Linearizable
import PhpMemcached.BatchTrip
import PhpMemcached.Settings
import PhpMemcached.Servers
import PhpMemcached.Tickets
