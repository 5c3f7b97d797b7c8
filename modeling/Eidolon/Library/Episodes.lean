import Mathlib.Data.List.Induction

/-!
# Histories of episodes

A history of things that are started and stopped, told apart by a key.  In a good history
every start is stopped exactly once before anything is started again.  What is started and
not yet stopped is the current episode, and by it one sees whether the next mark keeps the
history good.
-/

namespace Eidolon.Library

open List

universe u v

variable {κ : Type u} {τ : Type v} [DecidableEq κ]

/-- The start or the stop of what a key stands for. -/
inductive Mark (κ : Type u) where
  | start (key : κ)
  | stop (key : κ)
  deriving DecidableEq

namespace Mark

def isStart : Mark κ → Bool
  | start _ => true
  | stop _ => false

def stops (key : κ) : Mark κ → Bool
  | start _ => false
  | stop other => decide (other = key)

end Mark

/-- Up to the next start a start is stopped at most once, and it is stopped before the next
start. -/
structure Episodic (history : List (τ × Mark κ)) : Prop where
  once : ∀ before time key between later,
    history = before ++ (time, .start key) :: (between ++ later) →
    (∀ mark ∈ between, mark.2.isStart = false) →
    between.countP (fun mark => mark.2.stops key) ≤ 1
  ended : ∀ before time key between next later,
    history = before ++ (time, .start key) :: (between ++ next :: later) →
    (∀ mark ∈ between, mark.2.isStart = false) → next.2.isStart = true →
    between.countP (fun mark => mark.2.stops key) = 1

namespace Episodic

/-- The episode after one more mark. -/
def advance (current : Option (κ × τ)) (mark : τ × Mark κ) : Option (κ × τ) :=
  match mark.2 with
  | .start key => some (key, mark.1)
  | .stop key => current.filter fun episode => decide (episode.1 ≠ key)

variable (history : List (τ × Mark κ))

/-- The key that is started and not stopped, with the time of its start. -/
def current : Option (κ × τ) :=
  history.foldl advance none

theorem current_snoc (mark : τ × Mark κ) :
    current (history ++ [mark]) = advance (current history) mark := by
  rw [current, foldl_append]
  rfl

theorem advance_stop_self (key : κ) (start time : τ) :
    advance (some (key, start)) (time, .stop key) = none := by
  simp [advance]

variable {key : κ}

theorem advance_stop_of_ne {episode : Option (κ × τ)} (time : τ)
    (others : ∀ running ∈ episode, running.1 ≠ key) :
    advance episode (time, .stop key) = episode := by
  cases episode with
  | none => rfl
  | some running => simp [advance, others running rfl]

private theorem advance_of_not_start {mark : τ × Mark κ} (isStop : mark.2.isStart = false) :
    advance (none : Option (κ × τ)) mark = none ∧ ∀ key time, advance (some (key, time)) mark =
        if mark.2.stops key then none else some (key, time) := by
  obtain ⟨now, mark⟩ := mark
  cases mark with
  | start key => cases isStop
  | stop other =>
    refine ⟨rfl, fun key time => ?_⟩
    by_cases same : other = key
    · simp [advance, Mark.stops, same]
    simp [advance, Mark.stops, same, Ne.symm same]

variable {between : List (τ × Mark κ)}

theorem foldl_advance_none (noStart : ∀ mark ∈ between, mark.2.isStart = false) :
    between.foldl advance (none : Option (κ × τ)) = none := by
  induction between with
  | nil => rfl
  | cons mark rest ih =>
    rw [foldl_cons, (advance_of_not_start (noStart mark mem_cons_self)).1]
    exact ih fun other here => noStart other (mem_cons_of_mem _ here)

theorem foldl_advance_some (noStart : ∀ mark ∈ between, mark.2.isStart = false) (key : κ)
    (time : τ) :
    between.foldl advance (some (key, time)) =
      if between.countP (fun mark => mark.2.stops key) = 0 then some (key, time) else none := by
  induction between with
  | nil => rfl
  | cons mark rest ih =>
    have restNoStart : ∀ other ∈ rest, other.2.isStart = false :=
      fun other here => noStart other (mem_cons_of_mem _ here)
    rw [foldl_cons, (advance_of_not_start (noStart mark mem_cons_self)).2]
    by_cases stopped : mark.2.stops key = true
    · rw [if_pos stopped, foldl_advance_none restNoStart, countP_cons, if_pos stopped,
        if_neg (Nat.succ_ne_zero _)]
    rw [if_neg stopped, ih restNoStart, countP_cons, if_neg stopped, Nat.add_zero]

theorem current_split (before : List (τ × Mark κ)) (time : τ) (key : κ)
    (noStart : ∀ mark ∈ between, mark.2.isStart = false) :
    current (before ++ (time, .start key) :: between) =
      if between.countP (fun mark => mark.2.stops key) = 0 then some (key, time) else none := by
  rw [current, foldl_append]
  exact foldl_advance_some noStart key time

variable {history : List (τ × Mark κ)}

theorem exists_split_of_current {time : τ} (isCurrent : current history = some (key, time)) :
    ∃ before between, history = before ++ (time, .start key) :: between ∧
      ∀ mark ∈ between, mark.2.isStart = false ∧ mark.2.stops key = false := by
  induction history using List.reverseRecOn with
  | nil => cases isCurrent
  | append_singleton earlier mark ih =>
    rw [current_snoc] at isCurrent
    obtain ⟨now, mark⟩ := mark
    cases mark with
    | start other =>
      cases isCurrent
      exact ⟨earlier, [], rfl, fun mark here => absurd here not_mem_nil⟩
    | stop other =>
      obtain ⟨wasCurrent, different⟩ := Option.filter_eq_some_iff.mp isCurrent
      have apart : key ≠ other := of_decide_eq_true different
      obtain ⟨before, between, split, quiet⟩ := ih wasCurrent
      refine ⟨before, between ++ [(now, .stop other)], by simp [split], ?_⟩
      intro mark here
      rcases mem_append.mp here with wasHere | isLast
      · exact quiet mark wasHere
      rw [mem_singleton.mp isLast]
      exact ⟨rfl, decide_eq_false (Ne.symm apart)⟩

theorem snoc_eq_append_cons {α : Type*} {earlier before rest : List α} {last head : α}
    (split : earlier ++ [last] = before ++ head :: rest) :
    (rest = [] ∧ last = head ∧ earlier = before) ∨
      ∃ shorter, rest = shorter ++ [last] ∧ earlier = before ++ head :: shorter := by
  rcases eq_nil_or_concat rest with isNil | ⟨shorter, other, isSnoc⟩
  · rw [isNil] at split
    obtain ⟨same, lastSame⟩ := append_inj' split rfl
    exact .inl ⟨isNil, singleton_inj.mp lastSame, same⟩
  rw [concat_eq_append] at isSnoc
  rw [isSnoc, ← cons_append, ← append_assoc] at split
  obtain ⟨same, lastSame⟩ := append_inj' split rfl
  rw [singleton_inj.mp lastSame]
  exact .inr ⟨shorter, isSnoc, same⟩

theorem nil : Episodic ([] : List (τ × Mark κ)) := by
  refine ⟨?_, ?_⟩
  · intro before time key between later split
    exact absurd split.symm (by simp)
  intro before time key between next later split
  exact absurd split.symm (by simp)

theorem snoc_start (good : Episodic history) (idle : current history = none) (time : τ) (key : κ) :
    Episodic (history ++ [(time, .start key)]) := by
  refine ⟨?_, ?_⟩
  · intro before began other between later split noStart
    rcases snoc_eq_append_cons split with ⟨isNil, _, _⟩ | ⟨shorter, isSnoc, same⟩
    · rw [(append_eq_nil_iff.mp isNil).1]
      exact Nat.zero_le 1
    rcases eq_nil_or_concat later with isNil | ⟨fewer, last, isConcat⟩
    · -- the stops asked about would include the new start
      rw [isNil, append_nil] at isSnoc
      have isStop := noStart (time, .start key) (isSnoc ▸ mem_append_right _ mem_cons_self)
      cases isStop
    rw [isConcat, concat_eq_append, ← append_assoc] at isSnoc
    rw [← (append_inj' isSnoc rfl).1] at same
    exact good.once before began other between fewer same noStart
  intro before began other between next later split noStart nextStarts
  rcases snoc_eq_append_cons split with ⟨isNil, _, _⟩ | ⟨shorter, isSnoc, same⟩
  · exact absurd isNil (by simp)
  rcases snoc_eq_append_cons isSnoc.symm with ⟨_, _, isBetween⟩ | ⟨fewer, _, isShorter⟩
  · rw [isBetween] at same
    have atMost := good.once before began other between [] (by simpa using same) noStart
    have isCurrent := current_split before began other noStart
    rw [← same, idle] at isCurrent
    have stopped : between.countP (fun mark => mark.2.stops other) ≠ 0 := by
      intro notStopped
      rw [if_pos notStopped] at isCurrent
      cases isCurrent
    omega
  rw [isShorter] at same
  exact good.ended before began other between next fewer same noStart nextStarts

theorem current_of_snoc_start {time : τ} (good : Episodic (history ++ [(time, .start key)])) :
    current history = none := by
  rcases isCurrent : current history with _ | ⟨other, began⟩
  · rfl
  obtain ⟨before, between, split, quiet⟩ := exists_split_of_current isCurrent
  have stopped := good.ended before began other between (time, .start key) []
    (by simp [split]) (fun mark here => (quiet mark here).1) rfl
  have notStopped : between.countP (fun mark => mark.2.stops other) = 0 :=
    countP_eq_zero.mpr fun mark here => by simp [(quiet mark here).2]
  omega

theorem snoc_stop (good : Episodic history)
    (stoppable : (∃ began, current history = some (key, began)) ∨
      ∀ mark ∈ history, mark.2 ≠ .start key) (time : τ) :
    Episodic (history ++ [(time, .stop key)]) := by
  refine ⟨?_, ?_⟩
  · intro before began other between later split noStart
    rcases snoc_eq_append_cons split with ⟨isNil, _, _⟩ | ⟨shorter, isSnoc, same⟩
    · rw [(append_eq_nil_iff.mp isNil).1]
      exact Nat.zero_le 1
    rcases eq_nil_or_concat later with isNil | ⟨fewer, last, isConcat⟩
    · rw [isNil, append_nil] at isSnoc
      rw [isSnoc] at noStart ⊢
      have shorterNoStart : ∀ mark ∈ shorter, mark.2.isStart = false :=
        fun mark here => noStart mark (mem_append_left _ here)
      rw [countP_append]
      by_cases isKey : key = other
      · rcases stoppable with ⟨start, isCurrent⟩ | neverStarted
        · rw [same, current_split before began other shorterNoStart] at isCurrent
          split at isCurrent
          · rename_i notStopped
            rw [notStopped, Nat.zero_add]
            exact countP_le_length
          cases isCurrent
        refine absurd ?_ (neverStarted (began, .start other) (by simp [same]))
        rw [isKey]
      have atMost := good.once before began other shorter [] (by simpa using same) shorterNoStart
      simpa [Mark.stops, isKey] using atMost
    rw [isConcat, concat_eq_append, ← append_assoc] at isSnoc
    rw [← (append_inj' isSnoc rfl).1] at same
    exact good.once before began other between fewer same noStart
  intro before began other between next later split noStart nextStarts
  rcases snoc_eq_append_cons split with ⟨isNil, _, _⟩ | ⟨shorter, isSnoc, same⟩
  · exact absurd isNil (by simp)
  rcases snoc_eq_append_cons isSnoc.symm with ⟨_, isNext, _⟩ | ⟨fewer, _, isShorter⟩
  · rw [← isNext] at nextStarts
    cases nextStarts
  rw [isShorter] at same
  exact good.ended before began other between next fewer same noStart nextStarts

end Episodic

end Eidolon.Library
