import Eidolon.World.SequentialJournal
import Eidolon.World.WalDurability

/-!
# Durable transactions

A durable transaction is journalled under the current tick.  The journal has no gaps only
if each record that reaches the file is written in the tick of its own number, so neither
two in one tick nor the first in a tick after 1.
-/

namespace Eidolon.Server

open Library List Option World

inductive AppError where
  | io (error : JournalError)
  | world (error : WorldError)
  deriving DecidableEq

structure DurableApp where
  journal : Option DurableFileJournal
  currentTick : UInt64
  deriving DecidableEq

/-- A call and, where it writes, how the disk answers. -/
inductive DurableCall where
  | tick
  | transaction (accountId : UInt64) (opType : UInt8) (payload : List UInt8)
      (disk : DiskOutcome)
  deriving DecidableEq

namespace DurableApp

/-- The application as it is built, with the bytes that the journal file has. -/
def build (walFile : Option (List UInt8)) : DurableApp where
  journal := walFile.map DurableFileJournal.openFile
  currentTick := 0

def executeDurableTransaction (app : DurableApp) (accountId : UInt64) (opType : UInt8)
    (payload : List UInt8) (disk : DiskOutcome) : Except AppError UInt64 × DurableApp :=
  match app.journal with
  | none => (.ok app.currentTick, app)
  | some journal =>
    match WalRecord.new app.currentTick app.currentTick accountId 1 opType payload with
    | .error error => (.error (.world error), app)
    | .ok record =>
      match journal.appendAndSync record disk with
      | (.error error, journal) => (.error (.io error), { app with journal := some journal })
      | (.ok _, journal) => (.ok app.currentTick, { app with journal := some journal })

/-- The part of a tick that transactions see: the journal is at most synchronised. -/
def tick (app : DurableApp) : DurableApp :=
  { app with currentTick := app.currentTick + 1 }

def perform (app : DurableApp) : DurableCall → DurableApp
  | .tick => app.tick
  | .transaction accountId opType payload disk =>
    (app.executeDurableTransaction accountId opType payload disk).2

def file (app : DurableApp) : Option (List UInt8) :=
  app.journal.map (·.file)

end DurableApp

def completes (disk : DiskOutcome) (length : Nat) : Bool :=
  match disk with
  | .synced => true
  | .failed written => decide (length ≤ written)

/-- The record that a call writes to its end, synchronised or not. -/
def DurableApp.writes (app : DurableApp) : DurableCall → Option WalRecord
  | .tick => none
  | .transaction accountId opType payload disk =>
    match WalRecord.new app.currentTick app.currentTick accountId 1 opType payload with
    | .error _ => none
    | .ok record =>
      if completes disk (DurableFileJournal.recordFrame record).length then
        some record
      else
        none

structure DurableHistory where
  app : DurableApp
  appended : List WalRecord

namespace DurableHistory

/-- The start on a journal file with these records; a new file has none. -/
def start (earlier : List WalRecord) : DurableHistory where
  app := DurableApp.build (some (earlier.flatMap DurableFileJournal.recordFrame))
  appended := earlier

def step (history : DurableHistory) (call : DurableCall) : DurableHistory where
  app := history.app.perform call
  appended := history.appended ++ (history.app.writes call).toList

/-- The call writes nothing behind the remains of a frame. -/
def NothingTorn (history : DurableHistory) : DurableCall → Prop
  | .tick => True
  | .transaction _ _ payload disk =>
    payload.length ≤ maxWalPayloadLen → disk ≠ .failed 0 → history.app.file =
        some (history.appended.flatMap DurableFileJournal.recordFrame)

def NumbersNext (history : DurableHistory) : DurableCall → Prop
  | .tick => True
  | .transaction _ _ payload disk =>
    payload.length ≤ maxWalPayloadLen →
      completes disk (8 + (walHeaderLen + payload.length + 4)) = true →
        history.app.currentTick.toNat = history.appended.length + 1

structure Framed (history : DurableHistory) : Prop where
  wellFormed : ∀ record ∈ history.appended, record.WellFormed
  framed : ∃ journal tail, history.app.journal = some journal ∧
    journal.file = history.appended.flatMap DurableFileJournal.recordFrame ++ tail ∧
      DurableFileJournal.readFrame tail = none

variable {history : DurableHistory}

theorem file_appendAndSync (journal : DurableFileJournal) (record : WalRecord)
    (disk : DiskOutcome) : ∃ cut, (journal.appendAndSync record disk).2.file =
        journal.file ++ (DurableFileJournal.recordFrame record).take cut ∧
      (completes disk (DurableFileJournal.recordFrame record).length = true ↔
        (DurableFileJournal.recordFrame record).length ≤ cut) ∧
      (disk = .failed 0 → cut = 0) := by
  cases disk with
  | synced =>
    refine ⟨(DurableFileJournal.recordFrame record).length, ?_, ?_, ?_⟩
    · rw [(journal.appendAndSync_synced record).2, take_length]
    · exact iff_of_true rfl (Nat.le_refl _)
    exact fun failed => DiskOutcome.noConfusion failed
  | failed written =>
    refine ⟨written, journal.appendAndSync_failed record written, ?_, ?_⟩
    · rw [completes, decide_eq_true_iff]
    exact fun failed => DiskOutcome.failed.inj failed

theorem journal_execute {app : DurableApp} {journal : DurableFileJournal}
    (attached : app.journal = some journal) {accountId : UInt64} {opType : UInt8}
    {payload : List UInt8} {record : WalRecord}
    (made : WalRecord.new app.currentTick app.currentTick accountId 1 opType payload = .ok record)
    (disk : DiskOutcome) :
    (app.executeDurableTransaction accountId opType payload disk).2.journal =
      some (journal.appendAndSync record disk).2 := by
  rw [DurableApp.executeDurableTransaction, attached]
  simp only [made]
  rcases journal.appendAndSync record disk with ⟨result, after⟩
  cases result with
  | _ => rfl

theorem made_cases (app : DurableApp) (accountId : UInt64) (opType : UInt8) (payload : List UInt8) :
    (∃ error, WalRecord.new app.currentTick app.currentTick accountId 1 opType payload =
        .error error ∧ maxWalPayloadLen < payload.length) ∨
      ∃ record, WalRecord.new app.currentTick app.currentTick accountId 1 opType payload =
        .ok record ∧ payload.length ≤ maxWalPayloadLen ∧ record.WellFormed ∧
          record.lsn = app.currentTick ∧
          (DurableFileJournal.recordFrame record).length =
            8 + (walHeaderLen + payload.length + 4) := by
  by_cases short : payload.length ≤ maxWalPayloadLen
  · right
    have limit : maxWalPayloadLen = 128 := rfl
    cases made : WalRecord.new app.currentTick app.currentTick accountId 1 opType payload with
    | error error =>
      rw [WalRecord.new, dif_pos short] at made
      cases made
    | ok record =>
      have length : record.payloadLen.toNat = payload.length := by
        rw [WalRecord.new, dif_pos short] at made
        cases made
        exact UInt8.toNat_ofNat_of_lt' (by rw [UInt8.size]; omega)
      refine ⟨record, rfl, short, WalRecord.wellFormed_of_new made, WalRecord.new_lsn made, ?_⟩
      rw [DurableFileJournal.length_recordFrame, WalRecord.length_encoded]
      omega
  left
  rw [WalRecord.new, dif_neg short]
  exact ⟨_, rfl, by omega⟩

def Adds (history : DurableHistory) (call : DurableCall) : Prop :=
  ((history.step call).appended = history.appended ∧ history.NumbersNext call) ∨
    ∃ record, (history.step call).appended = history.appended ++ [record] ∧
      record.lsn = history.app.currentTick ∧
      (history.NumbersNext call ↔ history.app.currentTick.toNat = history.appended.length + 1)

theorem Framed.step {call : DurableCall} (framed : history.Framed)
    (nothingTorn : history.NothingTorn call) : (history.step call).Framed ∧ history.Adds call := by
  cases call with
  | tick =>
    have same : (history.step .tick).appended = history.appended := append_nil _
    refine ⟨⟨?_, ?_⟩, Or.inl ⟨same, trivial⟩⟩
    · rw [same]
      exact framed.wellFormed
    rw [same]
    exact framed.framed
  | transaction accountId opType payload disk =>
    obtain ⟨journal, tail, here, split, stops⟩ := framed.framed
    rcases made_cases history.app accountId opType payload with
      ⟨error, made, long⟩ | ⟨record, made, short, wellFormed, lsn, length⟩
    · -- the record is refused, and nothing is written
      have same : (history.step (.transaction accountId opType payload disk)).appended =
          history.appended := by
        simp only [DurableHistory.step, DurableApp.writes, made, toList_none, append_nil]
      have untouched : (history.app.perform (.transaction accountId opType payload disk)).journal =
            some journal := by
        simp only [DurableApp.perform, DurableApp.executeDurableTransaction, here, made]
      refine ⟨⟨?_, journal, tail, untouched, ?_, stops⟩, Or.inl ⟨same, ?_⟩⟩
      · rw [same]
        exact framed.wellFormed
      · rw [same]
        exact split
      exact fun short => absurd short (by omega)
    obtain ⟨cut, added, complete, nothing⟩ := file_appendAndSync journal record disk
    have after := journal_execute here made disk
    by_cases whole : completes disk (DurableFileJournal.recordFrame record).length = true
    · -- the whole frame is written, behind frames alone
      have behind := complete.mp whole
      have written : disk ≠ .failed 0 := by
        intro failed
        have none := nothing failed
        omega
      have frames := nothingTorn short written
      rw [DurableApp.file, here, map_some] at frames
      have grown : (history.step (.transaction accountId opType payload disk)).appended =
            history.appended ++ [record] := by
        simp only [DurableHistory.step, DurableApp.writes, made, if_pos whole, toList_some]
      refine ⟨⟨?_, _, [], after, ?_, rfl⟩, Or.inr ⟨record, grown, lsn, ?_⟩⟩
      · intro member listed
        rw [grown] at listed
        rcases List.mem_append.mp listed with old | new
        · exact framed.wellFormed member old
        rw [List.mem_singleton.mp new]
        exact wellFormed
      · rw [grown, added, some.inj frames, take_of_length_le behind,
          flatMap_append, flatMap_singleton, append_nil]
      rw [length] at whole
      exact ⟨fun next => next short whole, fun number _ _ => number⟩
    -- a front of the frame is written, which is not read
    have before : cut < (DurableFileJournal.recordFrame record).length :=
      Nat.lt_of_not_le fun behind => whole (complete.mpr behind)
    have same : (history.step (.transaction accountId opType payload disk)).appended =
        history.appended := by
      simp only [DurableHistory.step, DurableApp.writes, made, if_neg whole,
        toList_none, append_nil]
    refine ⟨⟨?_, ?_⟩, Or.inl ⟨same, ?_⟩⟩
    · rw [same]
      exact framed.wellFormed
    · rw [same]
      by_cases failed : disk = .failed 0
      · refine ⟨_, tail, after, ?_, stops⟩
        rw [added, nothing failed, take_zero, append_nil, split]
      have frames := nothingTorn short failed
      rw [DurableApp.file, here, map_some] at frames
      exact ⟨_, _, after, by rw [added, some.inj frames],
        DurableFileJournal.readFrame_take record before⟩
    intro _ finished
    rw [← length] at finished
    exact absurd finished whole

end DurableHistory

end Eidolon.Server
