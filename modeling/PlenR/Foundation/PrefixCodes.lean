import Mathlib.Data.List.TakeWhile

/-! Texts that tell where they end.

A writer of values is self-delimiting on a domain when a text that starts with a
written value starts with no other one: value and rest can be told apart without
being told the length. Such writers can be put one after another, behind a fixed
text and through an injection.
-/

set_option autoImplicit false

namespace Foundation

variable {Value First Second Letter : Type}

/-- The value and what follows it are determined by the text. -/
def SelfDelimiting (domain : Value → Prop) (write : Value → List Letter) : Prop :=
  ∀ value other, domain value → domain other → ∀ rest rest', write value ++ rest = write other ++ rest' →
    value = other ∧ rest = rest'

namespace SelfDelimiting

variable {domain : Value → Prop} {write : Value → List Letter}

theorem of_length (length : ℕ) (fixed : ∀ value, domain value → (write value).length = length)
    (distinct : ∀ value other, domain value → domain other → write value = write other → value = other) :
    SelfDelimiting domain write := by
  intro value other inside otherInside rest rest' same
  have lengths : (write value).length = (write other).length := (fixed value inside).trans (fixed other otherInside).symm
  obtain ⟨texts, rests⟩ := List.append_inj same lengths
  exact ⟨distinct value other inside otherInside texts, rests⟩

/-- Texts without a mark, which is put behind them. -/
theorem of_mark [DecidableEq Letter] (mark : Letter) (free : ∀ value, domain value → mark ∉ write value)
    (distinct : ∀ value other, domain value → domain other → write value = write other → value = other) :
    SelfDelimiting domain fun value => write value ++ [mark] := by
  intro value other inside otherInside rest rest' same
  have before : ∀ value, domain value → ∀ rest, ((write value ++ [mark]) ++ rest).takeWhile (· ≠ mark) = write value := by
    intro value inside rest
    have letters : ∀ letter ∈ write value, decide (letter ≠ mark) = true := by
      intro letter member
      rw [decide_eq_true_iff]
      rintro rfl
      exact free value inside member
    rw [List.append_assoc, List.takeWhile_append_of_pos letters]
    simp
  have texts := congrArg (List.takeWhile (· ≠ mark)) same
  rw [before value inside, before other otherInside] at texts
  obtain rfl := distinct value other inside otherInside texts
  exact ⟨rfl, List.append_cancel_left same⟩

theorem append {firstDomain : First → Prop} {secondDomain : Second → Prop} {writeFirst : First → List Letter}
    {writeSecond : Second → List Letter} (first : SelfDelimiting firstDomain writeFirst)
    (second : SelfDelimiting secondDomain writeSecond) :
    SelfDelimiting (fun pair : First × Second => firstDomain pair.1 ∧ secondDomain pair.2)
      fun pair => writeFirst pair.1 ++ writeSecond pair.2 := by
  intro ⟨value, next⟩ ⟨other, next'⟩ inside otherInside rest rest' same
  dsimp only at inside otherInside same
  rw [List.append_assoc, List.append_assoc] at same
  obtain ⟨rfl, later⟩ := first value other inside.1 otherInside.1 _ _ same
  obtain ⟨rfl, rests⟩ := second next next' inside.2 otherInside.2 _ _ later
  exact ⟨rfl, rests⟩

theorem behind (delimiting : SelfDelimiting domain write) (fixed : List Letter) :
    SelfDelimiting domain fun value => fixed ++ write value := by
  intro value other inside otherInside rest rest' same
  rw [List.append_assoc, List.append_assoc] at same
  exact delimiting value other inside otherInside rest rest' (List.append_cancel_left same)

theorem comap (delimiting : SelfDelimiting domain write) {sources : First → Prop} (take : First → Value)
    (into : ∀ source, sources source → domain (take source))
    (distinct : ∀ source other, sources source → sources other → take source = take other → source = other) :
    SelfDelimiting sources fun source => write (take source) := by
  intro source other inside otherInside rest rest' same
  obtain ⟨values, rests⟩ :=
    delimiting (take source) (take other) (into source inside) (into other otherInside) rest rest' same
  exact ⟨distinct source other inside otherInside values, rests⟩

end SelfDelimiting
end Foundation
