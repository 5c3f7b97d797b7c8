import Eidolon.Library.Framing
import Eidolon.World.DurableJournal

/-!
# Recovery over sessions

A journal file is written in sessions.  Each opens the file, appends records that are
confirmed, and ends in a crash during one further append.  Recovery after the last
session returns the confirmed records, as long as no session appends behind what an
earlier crash has left of a frame.
-/

namespace Eidolon.World

open Library List

/-- The records a session appends, and the append that its crash interrupts with so many
bytes written, fewer than the frame has. -/
structure JournalSession where
  appended : List WalRecord
  interrupted : WalRecord
  written : Nat
  written_lt : written < (DurableFileJournal.frame interrupted.encoded).length

namespace DurableFileJournal

variable (record : WalRecord)

def recordFrame : List UInt8 :=
  frame record.encoded

variable (journal : DurableFileJournal)

theorem appendAndSync_synced :
    (journal.appendAndSync record .synced).1 = .ok (8 + record.encoded.length) ∧
      (journal.appendAndSync record .synced).2.file = journal.file ++ recordFrame record := by
  simp [appendAndSync, record.encode_eq_ok, recordFrame]

theorem appendAndSync_failed (written : Nat) :
    (journal.appendAndSync record (.failed written)).2.file =
      journal.file ++ (recordFrame record).take written := by
  simp [appendAndSync, record.encode_eq_ok, recordFrame]

def readFrame (buffer : List UInt8) : Option (WalRecord × List UInt8) :=
  if buffer.length < 8 then
    none
  else if WalRecord.field buffer 0 4 ≠ journalMagic then
    none
  else
    let recordLen := WalRecord.field buffer 4 4
    let buffer := buffer.drop 8
    if buffer.length < recordLen then
      none
    else
      match WalRecord.decode (buffer.take recordLen) with
      | .ok (record, consumed) => some (record, buffer.drop consumed)
      | .error _ => none

theorem recoverFrames_eq_readAll (turns : Nat) (buffer : List UInt8) :
    recoverFrames turns buffer = Framing.readAll readFrame turns buffer := by
  induction turns generalizing buffer with
  | zero => rfl
  | succ turns ih =>
    simp only [recoverFrames, Framing.readAll, readFrame]
    split
    · rfl
    split
    · rfl
    split
    · rfl
    cases decoded : WalRecord.decode ((buffer.drop 8).take (WalRecord.field buffer 4 4)) with
    | error error => rfl
    | ok read => simp only [ih]

theorem readFrame_undoes {record : WalRecord} (wellFormed : record.WellFormed) :
    Framing.Undoes readFrame recordFrame record := by
  intro rest
  have limit : maxWalPayloadLen = 128 := rfl
  have header : walHeaderLen = 30 := rfl
  have encodedLength := record.length_encoded
  have parts : recordFrame record ++ rest = bigEndian 4 journalMagic ++
        (bigEndian 4 record.encoded.length ++ (record.encoded ++ rest)) := by
    simp only [recordFrame, frame, append_assoc]
  have magicRead : WalRecord.field (recordFrame record ++ rest) 0 4 = journalMagic := by
    rw [parts, WalRecord.field_bigEndian _ (by decide)]
  have lengthRead : WalRecord.field (recordFrame record ++ rest) 4 4 =
      record.encoded.length := by
    rw [parts, WalRecord.field_append_right (by rw [length_bigEndian]), length_bigEndian,
      WalRecord.field_bigEndian _ (by omega)]
  have body : (recordFrame record ++ rest).drop 8 = record.encoded ++ rest := by
    rw [parts, ← append_assoc]
    exact drop_left' (by simp)
  have long : ¬ (recordFrame record ++ rest).length < 8 := by
    rw [parts]
    simp only [length_append, length_bigEndian]
    omega
  have complete : ¬ (record.encoded ++ rest).length < record.encoded.length := by
    rw [length_append]
    omega
  have decoded : WalRecord.decode record.encoded = .ok (record, record.encoded.length) := by
    have whole := WalRecord.decode_encoded_append wellFormed []
    rwa [append_nil] at whole
  simp only [readFrame, if_neg long, magicRead, ne_eq, not_true_eq_false, if_false, lengthRead,
    body, if_neg complete, take_left, decoded, drop_left]

theorem wellFormed_of_readFrame (buffer : List UInt8) (record : WalRecord) (rest : List UInt8)
    (front : readFrame buffer = some (record, rest)) : record.WellFormed := by
  unfold readFrame at front
  split at front
  · cases front
  split at front
  · cases front
  simp only at front
  split at front
  · cases front
  split at front
  · rename_i decoded
    cases front
    exact WalRecord.wellFormed_of_decode decoded
  cases front

end DurableFileJournal

namespace JournalSession

open DurableFileJournal

variable (session : JournalSession)

def torn : List UInt8 :=
  (recordFrame session.interrupted).take session.written

/-- The file after the session. -/
def run (session : JournalSession) (file : List UInt8) : List UInt8 :=
  let journal :=
    session.appended.foldl (fun journal record => (journal.appendAndSync record .synced).2)
      (openFile file)
  (journal.appendAndSync session.interrupted (.failed session.written)).2.file

variable (sessions : List JournalSession)

def fileAfter : Option (List UInt8) :=
  sessions.foldl (fun file session => some (session.run (file.getD []))) none

/-- The records whose append has returned in some session, in order. -/
def confirmed : List WalRecord :=
  sessions.flatMap JournalSession.appended

def RecoversConfirmed : Prop :=
  (confirmed sessions).Sublist (recoverFromJournal (fileAfter sessions))

def AppendsBehindWholeFrames : Prop :=
  sessions.Pairwise fun earlier later => earlier.written = 0 ∨ later.appended = []

theorem confirmed_cons (sessions : List JournalSession) :
    confirmed (session :: sessions) = session.appended ++ confirmed sessions :=
  flatMap_cons

theorem run_eq (file : List UInt8) :
    session.run file = file ++ (session.appended.flatMap recordFrame ++ session.torn) := by
  have appends : ∀ (records : List WalRecord) (journal : DurableFileJournal),
      (records.foldl (fun journal record => (journal.appendAndSync record .synced).2)
        journal).file = journal.file ++ records.flatMap recordFrame := by
    intro records
    induction records with
    | nil =>
      intro journal
      rw [foldl_nil, flatMap_nil, append_nil]
    | cons record records ih =>
      intro journal
      rw [foldl_cons, ih, (journal.appendAndSync_synced record).2, flatMap_cons, append_assoc]
  rw [run, appendAndSync_failed, appends, openFile, torn, append_assoc]

theorem fileAfter_eq : (fileAfter sessions).getD [] = sessions.flatMap fun session =>
        session.appended.flatMap recordFrame ++ session.torn := by
  have grows : ∀ (sessions : List JournalSession) (file : Option (List UInt8)),
      (sessions.foldl (fun file session => some (session.run (file.getD []))) file).getD [] =
        file.getD [] ++ sessions.flatMap fun session =>
          session.appended.flatMap recordFrame ++ session.torn := by
    intro sessions
    induction sessions with
    | nil =>
      intro file
      rw [foldl_nil, flatMap_nil, append_nil]
    | cons session sessions ih =>
      intro file
      rw [foldl_cons, ih, Option.getD_some, run_eq, flatMap_cons, append_assoc]
  exact grows sessions none

theorem exists_tail {sessions : List JournalSession}
    (condition : AppendsBehindWholeFrames sessions) :
    ∃ tail, (fileAfter sessions).getD [] = (confirmed sessions).flatMap recordFrame ++ tail := by
  rw [fileAfter_eq]
  induction sessions with
  | nil => exact ⟨[], rfl⟩
  | cons session sessions ih =>
    rcases List.pairwise_cons.mp condition with ⟨first, rest⟩
    by_cases whole : session.written = 0
    · rcases ih rest with ⟨tail, split⟩
      refine ⟨tail, ?_⟩
      rw [flatMap_cons, split, torn, whole, take_zero, append_nil,
        confirmed_cons, flatMap_append, append_assoc]
    have noneLater : confirmed sessions = [] := by
      rw [confirmed, flatMap_eq_nil_iff]
      intro later member
      exact (first later member).resolve_left whole
    refine ⟨session.torn ++ sessions.flatMap fun session =>
      session.appended.flatMap recordFrame ++ session.torn, ?_⟩
    rw [flatMap_cons, confirmed_cons, noneLater, append_nil, append_assoc]

theorem recoverFromJournal_getD (file : Option (List UInt8)) :
    recoverFromJournal file = Framing.readAll readFrame (file.getD []).length (file.getD []) := by
  cases file with
  | none => rfl
  | some buffer => exact recoverFrames_eq_readAll buffer.length buffer

/-- When no session appends behind the remains of a frame, recovery returns every
confirmed record exactly if all of them are well formed. -/
theorem recoversConfirmed_iff_wellFormed {sessions : List JournalSession}
    (condition : AppendsBehindWholeFrames sessions) :
    RecoversConfirmed sessions ↔ ∀ record ∈ confirmed sessions, record.WellFormed := by
  rw [RecoversConfirmed, recoverFromJournal_getD]
  constructor
  · intro recovered record member
    exact Framing.forall_mem_readAll wellFormed_of_readFrame _ _ record (recovered.subset member)
  intro wellFormed
  rcases exists_tail condition with ⟨tail, split⟩
  rw [split]
  apply List.IsPrefix.sublist
  apply Framing.isPrefix_readAll
  · intro record member
    exact readFrame_undoes (wellFormed record member)
  have nonempty : ∀ record ∈ confirmed sessions, 0 < (recordFrame record).length := by
    intro record _
    rw [recordFrame, frame, length_append, length_append, length_bigEndian]
    omega
  have enough := Framing.length_le_flatMap nonempty
  rw [length_append]
  omega

variable (lsn : UInt64)

/-- A record as `WalRecord::new` builds it, and the default one where it cannot. -/
def sampleRecord : WalRecord :=
  match WalRecord.new lsn 100 2001 20 opCurrencyDelta [116, 49] with
  | .ok record => record
  | .error _ => WalRecord.default

def sampleSession (written : Nat) (small : written < 36) : JournalSession where
  appended := [sampleRecord lsn]
  interrupted := sampleRecord (lsn + 1)
  written := written
  written_lt := by
    simp only [frame, length_append, length_bigEndian, WalRecord.length_encoded, walHeaderLen]
    omega

theorem sampleRecord_wellFormed : (sampleRecord lsn).WellFormed := by
  have made : WalRecord.new lsn 100 2001 20 opCurrencyDelta [116, 49] =
      .ok (sampleRecord lsn) := rfl
  exact WalRecord.wellFormed_of_new made

theorem recoversConfirmed_wholeFrames :
    RecoversConfirmed [sampleSession 1 0 (by decide), sampleSession 2 18 (by decide)] := by
  have condition : AppendsBehindWholeFrames
      [sampleSession 1 0 (by decide), sampleSession 2 18 (by decide)] := by
    simp [AppendsBehindWholeFrames, sampleSession]
  apply (recoversConfirmed_iff_wellFormed condition).mpr
  intro record member
  have either : record = sampleRecord 1 ∨ record = sampleRecord 2 := by
    simpa [confirmed, sampleSession] using member
  rcases either with first | second
  · rw [first]
    exact sampleRecord_wellFormed 1
  rw [second]
  exact sampleRecord_wellFormed 2

/-- The record that a session confirms behind the remains of a frame is lost. -/
theorem not_recoversConfirmed_of_torn :
    ¬ RecoversConfirmed [sampleSession 1 18 (by decide), sampleSession 2 0 (by decide)] := by
  rw [RecoversConfirmed]
  decide +kernel

end JournalSession

end Eidolon.World

/-!
## Truncated journals

A journal file that is cut off anywhere is read up to the last frame that is whole: an
incomplete frame is taken neither for a record nor for the front of one.
-/

namespace Eidolon.World

open Library List

namespace DurableFileJournal

/-- Recovery from the frames of some records, cut off at a place, gives the longest prefix
of the records whose frames lie before the cut. -/
structure RecoversBefore (records : List WalRecord) (cut : Nat) : Prop where
  isPrefix : recoverFromJournal (some ((records.flatMap recordFrame).take cut)) <+: records
  whole : ((recoverFromJournal (some ((records.flatMap recordFrame).take cut))).flatMap
    recordFrame).length ≤ cut
  longest : ∀ front, front <+: records → (front.flatMap recordFrame).length ≤ cut →
    front <+: recoverFromJournal (some ((records.flatMap recordFrame).take cut))

theorem length_recordFrame (record : WalRecord) :
    (recordFrame record).length = 8 + record.encoded.length := by
  rw [recordFrame, frame, length_append, length_append, length_bigEndian, length_bigEndian]

theorem readFrame_take (record : WalRecord) {cut : Nat}
    (cutOff : cut < (recordFrame record).length) :
    readFrame ((recordFrame record).take cut) = none := by
  have limit : maxWalPayloadLen = 128 := rfl
  have header : walHeaderLen = 30 := rfl
  have encodedLength := record.length_encoded
  have frameLength := length_recordFrame record
  have length : ((recordFrame record).take cut).length = cut := by
    rw [length_take]
    omega
  unfold readFrame
  by_cases short : cut < 8
  · rw [if_pos (by omega)]
  rw [if_neg (by omega)]
  split
  · rfl
  have parts : (recordFrame record).take cut = bigEndian 4 journalMagic ++
      (bigEndian 4 record.encoded.length ++ record.encoded.take (cut - 8)) := by
    have eight : (bigEndian 4 journalMagic ++ bigEndian 4 record.encoded.length).length = 8 := by
      rw [length_append, length_bigEndian, length_bigEndian]
    rw [recordFrame, frame, take_append, eight, take_of_length_le (by omega), append_assoc]
  have lengthRead : WalRecord.field ((recordFrame record).take cut) 4 4 =
      record.encoded.length := by
    rw [parts, WalRecord.field_append_right (by rw [length_bigEndian]), length_bigEndian,
      WalRecord.field_bigEndian _ (by omega)]
  rw [if_pos]
  rw [length_drop]
  omega

/-- Wherever the file is cut, recovery gives the records before the cut. -/
theorem recoversBefore_of_wellFormed {records : List WalRecord}
    (wellFormed : ∀ record ∈ records, record.WellFormed) (cut : Nat) :
    RecoversBefore records cut := by
  have nonempty : ∀ record : WalRecord, 0 < (recordFrame record).length := by
    intro record
    rw [length_recordFrame]
    omega
  have recovered : recoverFromJournal (some ((records.flatMap recordFrame).take cut)) =
      Framing.wholeBefore recordFrame records cut := by
    rw [recoverFromJournal, recoverFrames_eq_readAll]
    apply Framing.readAll_take
    · exact fun record member => readFrame_undoes (wellFormed record member)
    · exact fun record _ _ cutOff => readFrame_take record cutOff
    · rfl
    -- the whole frames alone take as many bytes as there are records
    obtain ⟨rest, split⟩ := Framing.wholeBefore_isPrefix recordFrame records cut
    have lengths := congrArg (fun records => (records.flatMap recordFrame).length) split
    simp only [flatMap_append, length_append] at lengths
    have fits := Framing.length_wholeBefore_le recordFrame records cut
    have enough := Framing.length_le_flatMap
      (fun record (_ : record ∈ Framing.wholeBefore recordFrame records cut) =>
        nonempty record)
    rw [length_take]
    omega
  refine ⟨?_, ?_, ?_⟩
  · rw [recovered]
    exact Framing.wholeBefore_isPrefix recordFrame records cut
  · rw [recovered]
    exact Framing.length_wholeBefore_le recordFrame records cut
  intro front isPrefix fits
  rw [recovered]
  exact Framing.isPrefix_wholeBefore isPrefix fits

theorem recoversBefore_sample :
    RecoversBefore [JournalSession.sampleRecord 1, JournalSession.sampleRecord 2] 60 := by
  refine recoversBefore_of_wellFormed ?_ 60
  intro record member
  rcases List.mem_cons.mp member with first | later
  · rw [first]
    exact JournalSession.sampleRecord_wellFormed 1
  rw [List.mem_singleton.mp later]
  exact JournalSession.sampleRecord_wellFormed 2

/-- A record whose checksum was never computed is not recovered. -/
theorem not_recoversBefore_default :
    ¬ ∀ (records : List WalRecord) (cut : Nat), RecoversBefore records cut := by
  intro always
  have recovered : recoverFromJournal
      (some (([WalRecord.default].flatMap recordFrame).take 42)) = [] := by
    decide +kernel
  have longest := (always [WalRecord.default] 42).longest [WalRecord.default]
    (prefix_refl _) (by decide)
  rw [recovered] at longest
  exact absurd (List.prefix_nil.mp longest) (by simp)

end DurableFileJournal

end Eidolon.World
