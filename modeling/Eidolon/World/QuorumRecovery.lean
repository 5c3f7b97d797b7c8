import Eidolon.World.JournalRecovery

/-!
# Recovery by quorum

What `recover_quorum` returns, in terms of the records that the journals report.  It
counts the readings of a sequence number over all journals together, so that a record
which one journal holds twice, or whose number another journal holds with other contents,
counts as often as it is read.
-/

namespace Eidolon.World

open Library List

namespace ReplicatedJournalSink

open DurableFileJournal

variable (journals : List (Option (List UInt8)))

/-- All readings of a sequence number, in journal order. -/
def copies (lsn : UInt64) : List WalRecord :=
  Tally.withKey WalRecord.lsn (journals.flatMap recoverFromJournal) lsn

variable (record : WalRecord)

def holders : Nat :=
  journals.countP fun journal => decide (record ∈ recoverFromJournal journal)

/-- The readings of a record's sequence number that are not one journal's first reading of
the record itself: repetitions within a journal and other contents. -/
def surplus : Nat :=
  (journals.map fun journal =>
    ((Tally.withKey WalRecord.lsn (recoverFromJournal journal) record.lsn).erase record).length).sum

/-- Every sequence number from 1 to this one is read often enough. -/
def Counted (requiredAcks : Nat) (lsn : UInt64) :
    Prop :=
  ∀ earlier : UInt64, 1 ≤ earlier.toNat → earlier.toNat ≤ lsn.toNat →
    requiredAcks ≤ (copies journals earlier).length

theorem length_copies_eq :
    (copies journals record.lsn).length = holders journals record + surplus journals record := by
  induction journals with
  | nil => rfl
  | cons journal journals ih =>
    have split : copies (journal :: journals) record.lsn =
        Tally.withKey WalRecord.lsn (recoverFromJournal journal) record.lsn ++
          copies journals record.lsn := by
      rw [copies, flatMap_cons, Tally.withKey_append]
      rfl
    rw [split, length_append, ih, holders, holders, surplus, surplus,
      countP_cons, map_cons, sum_cons]
    by_cases held : record ∈ recoverFromJournal journal
    · have listed : record ∈ Tally.withKey WalRecord.lsn (recoverFromJournal journal) record.lsn :=
        Tally.mem_withKey.mpr ⟨held, rfl⟩
      have erased := length_erase_add_one listed
      simp only [held, decide_true, if_true]
      omega
    have unlisted : record ∉ Tally.withKey WalRecord.lsn (recoverFromJournal journal) record.lsn :=
      fun listed => held (Tally.mem_withKey.mp listed).1
    rw [erase_of_not_mem unlisted]
    simp only [held, decide_false, Bool.false_eq_true, if_false]
    omega

private def Acknowledged (ackMap : List (WalRecord × Nat)) (requiredAcks : Nat) (lsn : UInt64) :
    Prop :=
  ∃ record acks, Tally.lookup WalRecord.lsn ackMap lsn = some (record, acks) ∧ requiredAcks ≤ acks

variable {requiredAcks : Nat}

private theorem commitFrom_spec {ackMap : List (WalRecord × Nat)} {expectedLsn : Nat}
    {sortedLsns : List UInt64} (sorted : sortedLsns.Pairwise (· < ·))
    (listed : ∀ lsn, Acknowledged ackMap requiredAcks lsn → expectedLsn ≤ lsn.toNat →
      lsn ∈ sortedLsns) :
    (commitFrom ackMap requiredAcks expectedLsn sortedLsns).map (·.lsn.toNat) =
        List.range' expectedLsn (commitFrom ackMap requiredAcks expectedLsn sortedLsns).length ∧
      (∀ record ∈ commitFrom ackMap requiredAcks expectedLsn sortedLsns, ∃ acks,
        Tally.lookup WalRecord.lsn ackMap record.lsn = some (record, acks) ∧ requiredAcks ≤ acks) ∧
      ∀ lsn : UInt64, Acknowledged ackMap requiredAcks lsn → lsn.toNat ≠
          expectedLsn + (commitFrom ackMap requiredAcks expectedLsn sortedLsns).length := by
  induction sortedLsns generalizing expectedLsn with
  | nil =>
    refine ⟨rfl, fun record member => absurd member not_mem_nil, ?_⟩
    intro lsn enough here
    exact absurd (listed lsn enough (Nat.le_of_eq here.symm)) not_mem_nil
  | cons lsn sortedLsns ih =>
    obtain ⟨least, restSorted⟩ := pairwise_cons.mp sorted
    -- a number that the loop passes over or has used up is not needed further on
    have drop : ∀ next, expectedLsn ≤ next →
        (next ≤ lsn.toNat → ¬ Acknowledged ackMap requiredAcks lsn) →
          ∀ other, Acknowledged ackMap requiredAcks other → next ≤ other.toNat →
            other ∈ sortedLsns := by
      intro next later notHere other enough reached
      rcases mem_cons.mp (listed other enough (Nat.le_trans later reached)) with
        this | after
      · rw [this] at enough reached
        exact absurd enough (notHere reached)
      exact after
    rw [commitFrom]
    rcases found : Tally.lookup WalRecord.lsn ackMap lsn with _ | entry
    · have notHere : ¬ Acknowledged ackMap requiredAcks lsn := by
        intro enough
        rcases enough with ⟨record, acks, here, _⟩
        rw [found] at here
        cases here
      exact ih restSorted (drop expectedLsn (Nat.le_refl _) (fun _ => notHere))
    rcases entry with ⟨record, acks⟩
    simp only
    by_cases enough : requiredAcks ≤ acks
    · rw [if_pos enough]
      by_cases here : lsn.toNat = expectedLsn
      · rw [if_pos here]
        obtain ⟨numbers, acknowledged, stopped⟩ := ih restSorted
          (drop (expectedLsn + 1) (by omega) (fun passed => by omega))
        have lsnIs : record.lsn = lsn := Tally.key_of_lookup found
        refine ⟨?_, ?_, ?_⟩
        · rw [map_cons, numbers, length_cons, range'_succ, lsnIs, here]
        · intro other member
          rcases mem_cons.mp member with this | after
          · rw [this, lsnIs]
            exact ⟨acks, found, enough⟩
          exact acknowledged other after
        intro other otherEnough
        have past := stopped other otherEnough
        rw [length_cons]
        omega
      rw [if_neg here]
      by_cases passed : lsn.toNat < expectedLsn
      · rw [if_pos passed]
        exact ih restSorted (drop expectedLsn (Nat.le_refl _) (fun reached => by omega))
      rw [if_neg passed]
      refine ⟨rfl, fun record member => absurd member not_mem_nil, ?_⟩
      intro other otherEnough gap
      have reached : other.toNat = expectedLsn := gap
      rcases mem_cons.mp
        (listed other otherEnough (Nat.le_of_eq reached.symm)) with this | after
      · rw [this] at reached
        exact here reached
      have larger := UInt64.lt_iff_toNat_lt.mp (least other after)
      omega
    rw [if_neg enough]
    have notHere : ¬ Acknowledged ackMap requiredAcks lsn := by
      intro acknowledged
      rcases acknowledged with ⟨other, otherAcks, otherFound, otherEnough⟩
      rw [found] at otherFound
      cases otherFound
      exact enough otherEnough
    exact ih restSorted (drop expectedLsn (Nat.le_refl _) (fun _ => notHere))

private theorem lookup_ackMap (lsn : UInt64) : Tally.lookup WalRecord.lsn
        (Tally.tally WalRecord.lsn (journals.flatMap recoverFromJournal)) lsn =
      (copies journals lsn).head?.map fun first => (first, (copies journals lsn).length) :=
  Tally.lookup_tally WalRecord.lsn _ lsn

variable {journals : List (Option (List UInt8))}

private theorem acknowledged_iff (positive : 0 < requiredAcks) (lsn : UInt64) :
    Acknowledged (Tally.tally WalRecord.lsn (journals.flatMap recoverFromJournal)) requiredAcks
        lsn ↔ requiredAcks ≤ (copies journals lsn).length := by
  rw [Acknowledged, lookup_ackMap]
  rcases copies journals lsn with _ | ⟨first, more⟩
  · simp only [head?_nil, Option.map_none, length_nil]
    constructor
    · intro enough
      rcases enough with ⟨_, _, impossible, _⟩
      cases impossible
    omega
  constructor
  · intro enough
    rcases enough with ⟨_, _, found, enough⟩
    cases found
    exact enough
  intro enough
  exact ⟨first, _, rfl, enough⟩

private theorem sortedLsns_sorted (records : List WalRecord) :
    (((Tally.tally WalRecord.lsn records).map fun entry => entry.1.lsn).insertionSort
      (· ≤ ·)).Pairwise (· < ·) := by
  have nodup := Tally.nodup_keys_tally WalRecord.lsn records
  have perm := perm_insertionSort (· ≤ ·)
    ((Tally.tally WalRecord.lsn records).map fun entry => entry.1.lsn)
  have weak := pairwise_insertionSort (· ≤ ·)
    ((Tally.tally WalRecord.lsn records).map fun entry => entry.1.lsn)
  have distinct := (perm.nodup_iff).mpr nodup
  refine (weak.and distinct).imp ?_
  intro first second ordered
  exact UInt64.lt_of_le_of_ne ordered.1 ordered.2

private theorem recoverQuorum_eq (positive : 0 < requiredAcks) :
    recoverQuorum journals requiredAcks =
      commitFrom (Tally.tally WalRecord.lsn (journals.flatMap recoverFromJournal)) requiredAcks 1
        (((Tally.tally WalRecord.lsn (journals.flatMap recoverFromJournal)).map
          fun entry => entry.1.lsn).insertionSort (· ≤ ·)) := by
  rw [recoverQuorum]
  have notZero : (requiredAcks == 0) = false := by
    simp only [beq_eq_false_iff_ne]
    omega
  cases journals with
  | nil => rfl
  | cons journal journals =>
    simp only [isEmpty_cons, notZero, Bool.or_self, Bool.false_eq_true, if_false]

/-- A record is recovered exactly if every number up to its own is read often enough and
it is the first reading of its own. -/
theorem mem_recoverQuorum_iff (positive : 0 < requiredAcks) {record : WalRecord} :
    record ∈ recoverQuorum journals requiredAcks ↔
      1 ≤ record.lsn.toNat ∧ Counted journals requiredAcks record.lsn ∧
        (copies journals record.lsn).head? = some record := by
  have listed : ∀ lsn,
      Acknowledged (Tally.tally WalRecord.lsn (journals.flatMap recoverFromJournal)) requiredAcks
        lsn → 1 ≤ lsn.toNat →
        lsn ∈ ((Tally.tally WalRecord.lsn (journals.flatMap recoverFromJournal)).map
          fun entry => entry.1.lsn).insertionSort (· ≤ ·) := by
    intro lsn enough _
    apply (perm_insertionSort _ _).mem_iff.mpr
    apply Tally.mem_keys_tally
    have counted := (acknowledged_iff positive lsn).mp enough
    intro none
    have noCopies : copies journals lsn = [] := none
    rw [noCopies, length_nil] at counted
    omega
  obtain ⟨numbers, acknowledged, stopped⟩ := commitFrom_spec (sortedLsns_sorted _) listed
  rw [← recoverQuorum_eq positive] at numbers acknowledged stopped
  -- a recovered record is the first reading of its number
  have first_of : ∀ recovered ∈ recoverQuorum journals requiredAcks,
      (copies journals recovered.lsn).head? = some recovered ∧
        requiredAcks ≤ (copies journals recovered.lsn).length := by
    intro recovered member
    obtain ⟨acks, found, enough⟩ := acknowledged recovered member
    rw [lookup_ackMap, Option.map_eq_some_iff] at found
    obtain ⟨first, firstIs, pair⟩ := found
    cases pair
    exact ⟨firstIs, enough⟩
  -- and every number in the range has one
  have exists_of : ∀ number, 1 ≤ number → number ≤ (recoverQuorum journals requiredAcks).length →
        ∃ recovered ∈ recoverQuorum journals requiredAcks, recovered.lsn.toNat = number := by
    intro number positiveNumber inside
    have member : number ∈ (recoverQuorum journals requiredAcks).map (·.lsn.toNat) := by
      rw [numbers, mem_range'_1]
      omega
    exact mem_map.mp member
  constructor
  · intro member
    have inRange : record.lsn.toNat ∈ (recoverQuorum journals requiredAcks).map (·.lsn.toNat) :=
      mem_map.mpr ⟨record, member, rfl⟩
    rw [numbers, mem_range'_1] at inRange
    refine ⟨inRange.1, ?_, (first_of record member).1⟩
    intro earlier positiveEarlier before
    obtain ⟨recovered, recoveredMember, same⟩ :=
      exists_of earlier.toNat positiveEarlier (by omega)
    rw [← UInt64.toNat_inj.mp same]
    exact (first_of recovered recoveredMember).2
  intro conditions
  rcases conditions with ⟨positiveLsn, counted, firstIs⟩
  have inside : record.lsn.toNat ≤ (recoverQuorum journals requiredAcks).length := by
    by_contra short
    have next : (UInt64.ofNat (1 + (recoverQuorum journals requiredAcks).length)).toNat =
          1 + (recoverQuorum journals requiredAcks).length := by
      have small := record.lsn.toNat_lt
      rw [UInt64.toNat_ofNat']
      omega
    apply stopped _ _ next
    apply (acknowledged_iff positive _).mpr
    apply counted
    · omega
    omega
  obtain ⟨recovered, member, same⟩ := exists_of record.lsn.toNat positiveLsn inside
  have sameFirst := (first_of recovered member).1
  rw [UInt64.toNat_inj.mp same, firstIs] at sameFirst
  cases sameFirst
  exact member

end ReplicatedJournalSink

end Eidolon.World
