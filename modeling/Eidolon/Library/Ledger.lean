import Eidolon.Library.FiniteMap

/-!
# Ledgers

The entries of a table belong to owners. A book has a number for every owner, which is
written as entries come, change and move, and should be the sum of what the owner has.
-/

namespace Eidolon.Library

namespace Ledger

universe u v w

variable {Key : Type u} {Value : Type v} {Owner : Type w} [DecidableEq Owner]

/-- The sum of the weights of what an owner has. -/
def owned (owner : Value → Owner) (weight : Value → Nat) (table : Finmap fun _ : Key => Value)
    (who : Owner) : Nat :=
  FiniteMap.total (fun value => if owner value = who then weight value else 0) table

/-- The book is right for every owner. -/
def Balanced (owner : Value → Owner) (weight : Value → Nat)
    (table : Finmap fun _ : Key => Value) (book : Owner → Nat) : Prop :=
  ∀ who, book who = owned owner weight table who

variable {owner : Value → Owner} {weight : Value → Nat} {table : Finmap fun _ : Key => Value}

theorem owned_le_total (who : Owner) :
    owned owner weight table who ≤ FiniteMap.total weight table := by
  apply FiniteMap.total_mono
  intro value
  split
  · exact Nat.le_refl _
  exact Nat.zero_le _

variable [DecidableEq Key] {key : Key} {held : Value}

theorem weight_le_owned (owner : Value → Owner) (weight : Value → Nat)
    (found : table.lookup key = some held) :
    weight held ≤ owned owner weight table (owner held) := by
  rw [owned, FiniteMap.total_of_lookup _ found, if_pos rfl]
  exact Nat.le_add_right _ _

theorem owned_insert (owner : Value → Owner) (weight : Value → Nat)
    (found : table.lookup key = some held) (value : Value) (who : Owner) :
    owned owner weight (table.insert key value) who +
        (if owner held = who then weight held else 0) =
      owned owner weight table who + (if owner value = who then weight value else 0) :=
  FiniteMap.total_insert _ found value

theorem Balanced.enter {book later : Owner → Nat} (balanced : Balanced owner weight table book)
    (absent : key ∉ table) (value : Value)
    (written : ∀ who, later who = book who + if owner value = who then weight value else 0) :
    Balanced owner weight (table.insert key value) later := by
  intro who
  rw [written, balanced who, owned, owned, FiniteMap.total_insert_of_notMem _ absent, add_comm]

/-- An exchanged entry is taken off the number of its old owner and added to that of the new
one. -/
theorem Balanced.exchange {book later : Owner → Nat}
    (balanced : Balanced owner weight table book) (found : table.lookup key = some held)
    (value : Value)
    (written : ∀ who, later who = book who - (if owner held = who then weight held else 0) +
      if owner value = who then weight value else 0) :
    Balanced owner weight (table.insert key value) later := by
  intro who
  have exchanged := owned_insert owner weight found value who
  have enough : (if owner held = who then weight held else 0) ≤ owned owner weight table who := by
    split
    · rename_i same
      rw [← same]
      exact weight_le_owned owner weight found
    exact Nat.zero_le _
  rw [written, balanced who]
  omega

end Ledger

end Eidolon.Library
