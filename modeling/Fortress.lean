import Fortress.Account.Atomic
import Fortress.Elf.Loaded
import Fortress.Etcfs.Exact
import Fortress.Ext4.Pending
import Fortress.Fs.Pipe
import Fortress.Gpt.Containment
import Fortress.Handoff.Delivery
import Fortress.Handoff.Order
import Fortress.Mm.Integrity
import Fortress.Patch.Output
import Fortress.Pkg.Archive
import Fortress.Pkg.Catalog
import Fortress.Pmm.Audit
import Fortress.Process.Groups
import Fortress.Process.Reap
import Fortress.Sed.InPlace
import Fortress.Shm.Lifetime
import Fortress.Sshd.Auth
import Fortress.Sshd.Authorize
import Fortress.Sshd.Inbound
import Fortress.Sshd.RoundTrip
import Fortress.Sshd.Worker
import Fortress.Tcp.Poll
import Fortress.Tcp.RecvStream
import Fortress.Tcp.Timewait
import Fortress.Thread.Timeout
import Fortress.Vault.Update
import Fortress.Vfs.Creds
import Fortress.Vfs.Rename
import Fortress.Vmm.Lifetime
import Fortress.Wlan.Handshake
import Fortress.Wlan.Replay
