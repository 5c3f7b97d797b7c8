import Eidolon.Library.MachineInt
import Eidolon.Library.Run

/-!
# Authority epochs

A fencer accepts commands of the newest epoch it knows of, in the order of their sequence
numbers, and moves on to a newer epoch when a command names one or when it is told to.  The
last epoch there is has no successor: moving on from it starts its sequence again.
-/

namespace Eidolon.Core

open Library List

inductive AuthorityError where
  | staleEpoch (current packet : UInt32)
  | sequenceRegression (current packet : UInt32)
  deriving DecidableEq

structure AuthorityToken where
  accountId : UInt64
  sessionId : UInt64
  authorityEpoch : UInt32
  sequence : UInt32
  deriving DecidableEq

structure AuthorityFencer where
  activeEpoch : UInt32
  /-- The highest sequence number processed in the active epoch. -/
  highestSequence : UInt32
  deriving DecidableEq

namespace AuthorityFencer

def new (initialEpoch : UInt32) : AuthorityFencer where
  activeEpoch := initialEpoch
  highestSequence := 0

variable (fencer : AuthorityFencer)

def validateAndAdvance (token : AuthorityToken) : Except AuthorityError Unit × AuthorityFencer :=
  if token.authorityEpoch < fencer.activeEpoch then
    (.error (.staleEpoch fencer.activeEpoch token.authorityEpoch), fencer)
  else if fencer.activeEpoch < token.authorityEpoch then
    (.ok (), { activeEpoch := token.authorityEpoch, highestSequence := token.sequence })
  else if token.sequence ≤ fencer.highestSequence then
    (.error (.sequenceRegression fencer.highestSequence token.sequence), fencer)
  else
    (.ok (), { fencer with highestSequence := token.sequence })

def incrementEpoch : UInt32 × AuthorityFencer :=
  let next := saturatingAdd32 fencer.activeEpoch 1
  (next, { activeEpoch := next, highestSequence := 0 })

theorem validateAndAdvance_cases (token : AuthorityToken) :
    (∃ error, fencer.validateAndAdvance token = (.error error, fencer)) ∨
      ((fencer.activeEpoch < token.authorityEpoch ∨ fencer.activeEpoch = token.authorityEpoch ∧
            fencer.highestSequence < token.sequence) ∧
        fencer.validateAndAdvance token =
          (.ok (), { activeEpoch := token.authorityEpoch
                     highestSequence := token.sequence })) := by
  unfold validateAndAdvance
  by_cases stale : token.authorityEpoch < fencer.activeEpoch
  · exact .inl ⟨_, if_pos stale⟩
  rw [if_neg stale]
  by_cases newer : fencer.activeEpoch < token.authorityEpoch
  · exact .inr ⟨.inl newer, if_pos newer⟩
  have same : fencer.activeEpoch = token.authorityEpoch :=
    UInt32.le_antisymm (UInt32.not_lt.mp stale) (UInt32.not_lt.mp newer)
  rw [if_neg newer]
  by_cases regressed : token.sequence ≤ fencer.highestSequence
  · exact .inl ⟨_, if_pos regressed⟩
  refine .inr ⟨.inr ⟨same, UInt32.not_le.mp regressed⟩, ?_⟩
  rw [if_neg regressed, same]

end AuthorityFencer

inductive FencerCall where
  | validateAndAdvance (token : AuthorityToken)
  | incrementEpoch

inductive FencerEvent where
  | began (epoch : UInt32)
  | accepted (epoch sequence : UInt32)
  deriving DecidableEq

/-- The second event may come after the first: a command that is accepted is of no older
epoch than one that has begun, and it is greater than the commands accepted before it. -/
def FencerEvent.Permits : FencerEvent → FencerEvent → Prop
  | .began epoch, .accepted later _ => epoch ≤ later
  | .accepted epoch sequence, .accepted later laterSequence =>
    epoch < later ∨ epoch = later ∧ sequence < laterSequence
  | _, .began _ => True

instance (event later : FencerEvent) : Decidable (event.Permits later) :=
  match event, later with
  | .began _, .accepted _ _ => UInt32.decLe _ _
  | .accepted _ _, .accepted _ _ => instDecidableOr
  | .began _, .began _ => isTrue trivial
  | .accepted _ _, .began _ => isTrue trivial

structure FencerLog where
  fencer : AuthorityFencer
  events : List FencerEvent

namespace FencerLog

def start (initialEpoch : UInt32) : FencerLog where
  fencer := AuthorityFencer.new initialEpoch
  events := [.began initialEpoch]

def step (log : FencerLog) : FencerCall → FencerLog
  | .validateAndAdvance token =>
    match log.fencer.validateAndAdvance token with
    | (.ok _, advanced) =>
      { fencer := advanced
        events := log.events ++ [.accepted token.authorityEpoch token.sequence] }
    | (.error _, unchanged) => { log with fencer := unchanged }
  | .incrementEpoch =>
    { fencer := log.fencer.incrementEpoch.2
      events := log.events ++ [.began log.fencer.incrementEpoch.1] }

variable (log : FencerLog)

/-- Every event may come after all earlier ones. -/
def InOrder : Prop :=
  log.events.Pairwise FencerEvent.Permits

instance (log : FencerLog) : Decidable log.InOrder :=
  inferInstanceAs (Decidable (log.events.Pairwise FencerEvent.Permits))

def RejectsUnchanged (log : FencerLog) : FencerCall → Prop
  | .validateAndAdvance token =>
    ∀ error, (log.fencer.validateAndAdvance token).1 = .error error →
      log.step (.validateAndAdvance token) = log
  | .incrementEpoch => True

/-- The call does not start the sequence of the last epoch again. -/
def KeepsSequence (log : FencerLog) : FencerCall → Prop
  | .validateAndAdvance _ => True
  | .incrementEpoch => log.fencer.activeEpoch.toNat + 1 < 2 ^ 32 ∨ log.fencer.highestSequence = 0

instance (log : FencerLog) (call : FencerCall) : Decidable (log.KeepsSequence call) :=
  match call with
  | .validateAndAdvance _ => isTrue trivial
  | .incrementEpoch => instDecidableOr

structure Tracked (log : FencerLog) : Prop where
  inOrder : log.InOrder
  began : ∀ epoch, FencerEvent.began epoch ∈ log.events → epoch ≤ log.fencer.activeEpoch
  accepted : ∀ epoch sequence, FencerEvent.accepted epoch sequence ∈ log.events →
    epoch < log.fencer.activeEpoch ∨
      epoch = log.fencer.activeEpoch ∧ sequence ≤ log.fencer.highestSequence
  highest : log.fencer.highestSequence = 0 ∨
    FencerEvent.accepted log.fencer.activeEpoch log.fencer.highestSequence ∈ log.events

theorem step_cases (token : AuthorityToken) :
    ((∃ error, (log.fencer.validateAndAdvance token).1 = .error error) ∧
        log.step (.validateAndAdvance token) = log) ∨
      ((log.fencer.activeEpoch < token.authorityEpoch ∨
          log.fencer.activeEpoch = token.authorityEpoch ∧
            log.fencer.highestSequence < token.sequence) ∧
        (log.fencer.validateAndAdvance token).1 = .ok () ∧
        log.step (.validateAndAdvance token) =
          { fencer := { activeEpoch := token.authorityEpoch
                        highestSequence := token.sequence }
            events := log.events ++ [.accepted token.authorityEpoch token.sequence] }) := by
  rcases log.fencer.validateAndAdvance_cases token with ⟨error, rejected⟩ | ⟨greater, advanced⟩
  · refine .inl ⟨⟨error, by rw [rejected]⟩, ?_⟩
    rw [step, rejected]
  refine .inr ⟨greater, by rw [advanced], ?_⟩
  rw [step, advanced]

theorem rejectsUnchanged (call : FencerCall) : log.RejectsUnchanged call := by
  cases call with
  | validateAndAdvance token =>
    intro error rejected
    rcases log.step_cases token with ⟨_, unchanged⟩ | ⟨_, accepted, _⟩
    · exact unchanged
    rw [accepted] at rejected
    cases rejected
  | incrementEpoch => trivial

theorem tracked_start (initialEpoch : UInt32) : (start initialEpoch).Tracked where
  inOrder := pairwise_singleton _ _
  began := by
    intro epoch listed
    cases List.mem_singleton.mp listed
    exact UInt32.le_refl _
  accepted := by
    intro epoch sequence listed
    cases List.mem_singleton.mp listed
  highest := .inl rfl

theorem mem_snoc {events : List FencerEvent} {event last : FencerEvent}
    (listed : event ∈ events ++ [last]) : event ∈ events ∨ event = last := by
  rwa [mem_append, mem_singleton] at listed

theorem InOrder.snoc {events : List FencerEvent} {last : FencerEvent}
    (inOrder : events.Pairwise FencerEvent.Permits)
    (permitted : ∀ event ∈ events, event.Permits last) :
    (events ++ [last]).Pairwise FencerEvent.Permits := by
  refine List.pairwise_append.mpr ⟨inOrder, pairwise_singleton _ _, ?_⟩
  intro event listed other isLast
  rw [List.mem_singleton.mp isLast]
  exact permitted event listed

variable {log : FencerLog}

theorem Tracked.permits_accepted (tracked : log.Tracked) {epoch sequence : UInt32}
    (greater : log.fencer.activeEpoch < epoch ∨
      log.fencer.activeEpoch = epoch ∧ log.fencer.highestSequence < sequence) :
    ∀ event ∈ log.events, event.Permits (.accepted epoch sequence) := by
  intro event listed
  cases event with
  | began earlier =>
    have bound := tracked.began earlier listed
    rcases greater with newer | ⟨rfl, _⟩
    · exact UInt32.le_trans bound (UInt32.le_of_lt newer)
    exact bound
  | accepted earlier earlierSequence =>
    have bound := tracked.accepted earlier earlierSequence listed
    rcases greater with newer | ⟨rfl, larger⟩
    · left
      rcases bound with older | ⟨rfl, _⟩
      · exact UInt32.lt_trans older newer
      exact newer
    rcases bound with older | ⟨same, smaller⟩
    · exact .inl older
    exact .inr ⟨same, UInt32.lt_of_le_of_lt smaller larger⟩

theorem Tracked.accept (tracked : log.Tracked) {epoch sequence : UInt32}
    (greater : log.fencer.activeEpoch < epoch ∨
      log.fencer.activeEpoch = epoch ∧ log.fencer.highestSequence < sequence) :
    FencerLog.Tracked
      { fencer := { activeEpoch := epoch, highestSequence := sequence }
        events := log.events ++ [.accepted epoch sequence] } where
  inOrder := InOrder.snoc tracked.inOrder (tracked.permits_accepted greater)
  began := by
    intro earlier listed
    rcases mem_snoc listed with before | isLast
    · exact tracked.permits_accepted greater _ before
    cases isLast
  accepted := by
    intro earlier earlierSequence listed
    rcases mem_snoc listed with before | isLast
    · rcases tracked.permits_accepted greater _ before with older | ⟨same, smaller⟩
      · exact .inl older
      exact .inr ⟨same, UInt32.le_of_lt smaller⟩
    cases isLast
    exact .inr ⟨rfl, UInt32.le_refl _⟩
  highest := .inr (mem_append_right _ (mem_singleton_self _))

theorem Tracked.increment (tracked : log.Tracked) (keeps : log.KeepsSequence .incrementEpoch) :
    (log.step .incrementEpoch).Tracked where
  inOrder := by
    refine InOrder.snoc tracked.inOrder ?_
    intro event _
    cases event <;> trivial
  began := by
    intro epoch listed
    rcases mem_snoc listed with before | isLast
    · have bound := tracked.began epoch before
      rw [UInt32.le_iff_toNat_le] at bound ⊢
      change _ ≤ (saturatingAdd32 log.fencer.activeEpoch 1).toNat
      rw [toNat_saturatingAdd32]
      have small := log.fencer.activeEpoch.toNat_lt
      omega
    cases isLast
    exact UInt32.le_refl _
  accepted := by
    intro epoch sequence listed
    rcases mem_snoc listed with before | isLast
    · have bound := tracked.accepted epoch sequence before
      change epoch < saturatingAdd32 log.fencer.activeEpoch 1 ∨
        epoch = saturatingAdd32 log.fencer.activeEpoch 1 ∧ sequence ≤ 0
      have small := log.fencer.activeEpoch.toNat_lt
      have one : (1 : UInt32).toNat = 1 := rfl
      have next := toNat_saturatingAdd32 log.fencer.activeEpoch 1
      rw [UInt32.lt_iff_toNat_lt, UInt32.le_iff_toNat_le, ← UInt32.toNat_inj] at bound ⊢
      rcases keeps with successor | nothing
      · omega
      rw [nothing] at bound
      omega
    cases isLast
  highest := .inl rfl

theorem Tracked.step (tracked : log.Tracked) {call : FencerCall} (keeps : log.KeepsSequence call) :
    (log.step call).Tracked := by
  cases call with
  | validateAndAdvance token =>
    rcases log.step_cases token with ⟨_, unchanged⟩ | ⟨greater, _, advanced⟩
    · rw [unchanged]
      exact tracked
    rw [advanced]
    exact tracked.accept greater
  | incrementEpoch => exact tracked.increment keeps

theorem tracked_run (initialEpoch : UInt32) {calls : List FencerCall}
    (kept : EachStep step KeepsSequence (start initialEpoch) calls) :
    (run step (start initialEpoch) calls).Tracked :=
  (throughout_of_eachStep (fun _ _ tracked keeps => tracked.step keeps)
    (tracked_start initialEpoch) kept).run

theorem Tracked.replayed (tracked : log.Tracked) (forgets : ¬ log.KeepsSequence .incrementEpoch)
    (accountId sessionId : UInt64) :
    ¬ ((log.step .incrementEpoch).step (.validateAndAdvance
      { accountId := accountId, sessionId := sessionId
        authorityEpoch := log.fencer.activeEpoch
        sequence := log.fencer.highestSequence })).InOrder := by
  rw [KeepsSequence, not_or] at forgets
  rcases forgets with ⟨last, something⟩
  have nonzero : log.fencer.highestSequence.toNat ≠ 0 := by
    rwa [← UInt32.toNat_inj] at something
  have small := log.fencer.activeEpoch.toNat_lt
  have same : saturatingAdd32 log.fencer.activeEpoch 1 = log.fencer.activeEpoch := by
    rw [← UInt32.toNat_inj, toNat_saturatingAdd32]
    omega
  have before := tracked.highest.resolve_left something
  intro inOrder
  rcases (log.step .incrementEpoch).step_cases
      { accountId := accountId, sessionId := sessionId
        authorityEpoch := log.fencer.activeEpoch
        sequence := log.fencer.highestSequence } with ⟨⟨error, rejected⟩, _⟩ | ⟨_, _, advanced⟩
  · have position : (log.step .incrementEpoch).fencer =
        { activeEpoch := log.fencer.activeEpoch, highestSequence := 0 } := by
      change (log.fencer.incrementEpoch).2 = _
      rw [AuthorityFencer.incrementEpoch, same]
    have larger : ¬ log.fencer.highestSequence ≤ 0 :=
      fun small => nonzero (Nat.le_zero.mp small)
    rw [position, AuthorityFencer.validateAndAdvance, if_neg (UInt32.lt_irrefl _),
      if_neg (UInt32.lt_irrefl _), if_neg larger] at rejected
    cases rejected
  rw [advanced] at inOrder
  have twice := (List.pairwise_append.mp inOrder).2.2 _ (mem_append_left _ before) _
    (mem_singleton_self _)
  rcases twice with older | ⟨_, smaller⟩
  · exact UInt32.lt_irrefl _ older
  exact UInt32.lt_irrefl _ smaller

/-- A call that is rejected changes nothing.  What is accepted is in order in every run that
does not start the last epoch again, and a call after such a run is harmless exactly when it
does not do so either. -/
theorem fences (initialEpoch : UInt32) (calls : List FencerCall) :
    EachStep step RejectsUnchanged (start initialEpoch) calls ∧
      (EachStep step KeepsSequence (start initialEpoch) calls →
        (run step (start initialEpoch) calls).InOrder ∧
          ∀ call, ((run step (start initialEpoch) calls).KeepsSequence call ↔
            ∀ token, (run step (start initialEpoch)
              (calls ++ [call, .validateAndAdvance token])).InOrder)) := by
  constructor
  · have any : EachStep step (fun _ _ => True) (start initialEpoch) calls :=
      eachStep_of_forall (fun _ _ => trivial) _
    exact any.imp fun log call _ => log.rejectsUnchanged call
  intro kept
  have tracked := tracked_run initialEpoch kept
  refine ⟨tracked.inOrder, ?_⟩
  intro call
  constructor
  · intro keeps token
    have keepsNext : ((run step (start initialEpoch) calls).step call).KeepsSequence
        (.validateAndAdvance token) := trivial
    rw [run_append]
    exact ((tracked.step keeps).step keepsNext).inOrder
  intro always
  cases call with
  | validateAndAdvance token => trivial
  | incrementEpoch =>
    apply Decidable.of_not_not
    intro forgets
    apply tracked.replayed forgets 0 0
    have inOrder := always
      { accountId := 0, sessionId := 0
        authorityEpoch := (run step (start initialEpoch) calls).fencer.activeEpoch
        sequence := (run step (start initialEpoch) calls).fencer.highestSequence }
    rwa [run_append] at inOrder

def command (authorityEpoch sequence : UInt32) : AuthorityToken where
  accountId := 49201
  sessionId := 88301
  authorityEpoch := authorityEpoch
  sequence := sequence

/-- A reconnect that starts the third epoch, with commands before and after it. -/
theorem fences_reconnect : (run step (start 1) [.validateAndAdvance (command 2 7), .incrementEpoch,
      .validateAndAdvance (command 3 1)]).InOrder :=
  ((fences 1 [.validateAndAdvance (command 2 7), .incrementEpoch,
    .validateAndAdvance (command 3 1)]).2 (by decide)).1

/-- In the last epoch a command is accepted, and again after a reconnect. -/
theorem not_inOrder_lastEpoch :
    ¬ (run step (start 1) [.validateAndAdvance (command 0xffffffff 1), .incrementEpoch,
      .validateAndAdvance (command 0xffffffff 1)]).InOrder := by
  decide

end FencerLog

end Eidolon.Core
