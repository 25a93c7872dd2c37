import Mathlib.Computability.Language
import Mathlib.Order.CompletePartialOrder

/-!
# Words of a protocol

A protocol says which sequences of messages a party can exchange, and how each
ends. Its grammar is a language for each way to end: `letter` is one message of a
kind, `ending` closes the alternatives that end in the way in question, and
sequence, choice and repetition are those of languages.
-/

namespace Words

open Computability

variable {α : Type*} {p : α → Prop} {b : Prop} {a : α} {w : List α} {L M : Language α}

/-- One message of a kind. -/
def letter (p : α → Prop) : Language α := {w | ∃ a, p a ∧ w = [a]}

/-- The end of the words that end as `b` says. -/
def ending (b : Prop) : Language α := {w | w = [] ∧ b}

theorem letter_mem (ha : p a) : [a] ∈ letter p := ⟨a, ha, rfl⟩

theorem ending_mem (hb : b) : [] ∈ (ending b : Language α) := ⟨rfl, hb⟩

/-- A message in front of a word. -/
theorem cons_mem (ha : p a) (hw : w ∈ L) : a :: w ∈ letter p * L :=
  Language.append_mem_mul (letter_mem ha) hw

/-- The last message of a word. -/
theorem last_mem (ha : p a) (hb : b) : [a] ∈ letter p * (ending b : Language α) :=
  cons_mem ha (ending_mem hb)

theorem inl_mem (hw : w ∈ L) : w ∈ L + M := Or.inl hw

theorem inr_mem (hw : w ∈ M) : w ∈ L + M := Or.inr hw

/-- A repetition, each round of it the word of an item. -/
theorem repeat_mem {ι : Type*} {f : ι → List α} {xs : List ι} (h : ∀ x ∈ xs, f x ∈ L) :
    xs.flatMap f ∈ L∗ := by
  rw [List.flatMap_def]
  apply Language.join_mem_kstar
  intro u hu
  obtain ⟨x, hx, rfl⟩ := List.mem_map.mp hu
  exact h x hx

end Words
