import Classpath.Text.Blank
import Mathlib.Data.List.Basic

/-! # What trimming leaves

Trimming changes no text without blanks at its ends (`Classpath.Text.trim_of_ends`), and it changes
every text that it shortens (`Classpath.Text.trim_of_length`). It leaves alone what stands in front
without a blank (`Classpath.Text.exists_trimEnds`).
-/

namespace Classpath.Text

variable {s : String}

/-- Trimming changes no text without blanks at its ends. -/
theorem trim_of_ends (front : ∀ c ∈ s.toList.head?, isBlank c = false)
    (back : ∀ c ∈ s.toList.getLast?, isBlank c = false) : trim s = s := by
  have stays : ∀ cs : List Char, (∀ c ∈ cs.head?, isBlank c = false) →
      cs.dropWhile isBlank = cs := by
    intro cs first
    cases cs with
    | nil => rfl
    | cons c rest => rw [List.dropWhile_cons, first c rfl, if_neg (by simp)]
  rw [trim, trimEnds, stays _ front, stays _ (by simpa using back), List.reverse_reverse,
    String.ofList_toList]

theorem trim_sublist (s : String) : (trim s).toList.Sublist s.toList := by
  rw [trim, String.toList_ofList, trimEnds]
  have back := List.reverse_sublist.mpr
    (List.dropWhile_sublist isBlank (l := (s.toList.dropWhile isBlank).reverse))
  rw [List.reverse_reverse] at back
  exact back.trans (List.dropWhile_sublist isBlank)

/-- A text that trimming does not shorten is not changed by it. -/
theorem trim_of_length (whole : s.toList.length ≤ (trim s).toList.length) : trim s = s := by
  rw [← String.toList_inj]
  exact (trim_sublist s).eq_of_length_le whole

theorem isBlank_getLast_of_trim (trimmed : trim s = s) :
    ∀ c ∈ s.toList.getLast?, isBlank c = false := by
  intro c last
  rw [← trimmed, trim, String.toList_ofList, trimEnds, List.getLast?_reverse] at last
  exact head?_dropWhile_not isBlank _ c last

theorem isBlank_of_graphic {c : Char} (graphic : 0x21 ≤ c.toNat ∧ c.toNat ≤ 0x7E) :
    isBlank c = false := by
  simp only [isBlank, isSpace, Bool.or_eq_false_iff, Bool.and_eq_false_iff,
    decide_eq_false_iff_not, beq_eq_false_iff_ne]
  omega

/-- Blanks are trimmed only behind what has none. -/
theorem exists_trimEnds {front : List Char} (solid : ∀ c ∈ front, isBlank c = false)
    (some_front : front ≠ []) (cs : List Char) :
    ∃ rest, trimEnds isBlank (front ++ cs) = front ++ rest := by
  have stays : ∀ ds : List Char, ds ≠ [] → (∀ c ∈ ds, isBlank c = false) →
      ∀ more, (ds ++ more).dropWhile isBlank = ds ++ more := by
    intro ds some_char shown more
    cases ds with
    | nil => exact absurd rfl some_char
    | cons c rest => simp [shown c List.mem_cons_self]
  have back := stays front.reverse (by simpa using some_front) (by simpa using solid) []
  rw [List.append_nil] at back
  rw [trimEnds, stays front some_front solid, List.reverse_append, List.dropWhile_append]
  split
  · exact ⟨[], by rw [back, List.reverse_reverse, List.append_nil]⟩
  · exact ⟨(cs.reverse.dropWhile isBlank).reverse, by simp⟩

end Classpath.Text
