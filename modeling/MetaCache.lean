import MetaCache.Command.Program
import MetaCache.Json.Tree
import MetaCache.Main
import MetaCache.Proofs.Cache.Placeholders
import MetaCache.Proofs.Cache.Preload
import MetaCache.Proofs.Command.Origin
import MetaCache.Proofs.Store.Reopening
import MetaCache.Remote.Routes
import MetaCache.Proofs.Store.Keeping
import MetaCache.Proofs.Remote.Paths
import MetaCache.Proofs.Store.Fetched
import MetaCache.Proofs.Cache.Errands
import MetaCache.Proofs.Cache.Order
import MetaCache.Proofs.Cache.Absence
import MetaCache.Proofs.Cache.Expiry
import MetaCache.Proofs.Cache.Respelling
import MetaCache.Proofs.Command.Framing
import MetaCache.Proofs.Remote.Cursors
import MetaCache.Proofs.Cache.Aborted
import MetaCache.Proofs.Cache.Reports
import MetaCache.Proofs.Json.Decoding
import MetaCache.Proofs.Record.Format
import MetaCache.Proofs.Remote.Reached
import MetaCache.Proofs.Store.Values
import MetaCache.Proofs.Remote.Bodies
import MetaCache.Proofs.Command.Line
import MetaCache.Proofs.Store.Keys
import MetaCache.Proofs.Guid.Canonical
import MetaCache.Proofs.Command.Settled
