import TrapHandler.Loops
import TrapHandler.Occurrences

/-!
# Replacing texts

`replaceAll` of `utils` for both of its string types. The loop searches the string it edits, from
behind the last replacement.
-/

namespace TrapHandler.Utils

open StateTransition Occurrences Loops

variable {α : Type}

/-- `basic_string::replace`. -/
def replaceAt (str : List α) (pos len : ℕ) (toStr : List α) : List α :=
  str.take pos ++ toStr ++ str.drop (pos + len)

section

variable {str toStr : List α} {pos len : ℕ}

theorem take_replaceAt (hpos : pos ≤ str.length) :
    (replaceAt str pos len toStr).take (pos + toStr.length) = str.take pos ++ toStr := by
  have hlen : (str.take pos ++ toStr).length = pos + toStr.length := by
    rw [List.length_append, List.length_take_of_le hpos]
  rw [replaceAt, ← hlen, List.take_left]

theorem drop_replaceAt (hpos : pos ≤ str.length) :
    (replaceAt str pos len toStr).drop (pos + toStr.length) = str.drop (pos + len) := by
  have hlen : (str.take pos ++ toStr).length = pos + toStr.length := by
    rw [List.length_append, List.length_take_of_le hpos]
  rw [replaceAt, ← hlen, List.drop_left]

theorem length_replaceAt (hpos : pos ≤ str.length) :
    (replaceAt str pos len toStr).length = pos + toStr.length + (str.length - (pos + len)) := by
  rw [replaceAt, List.length_append, List.length_append, List.length_take_of_le hpos,
    List.length_drop]

end

variable [DecidableEq α]

/-- `basic_string::find`. -/
def find (str sub : List α) (pos : ℕ) : Option ℕ :=
  (Occurrences.find sub (str.drop pos)).map (pos + ·)

structure Replacing (α : Type) where
  str : List α
  startPos : ℕ
deriving DecidableEq, Repr

def replaceStep (fromStr toStr : List α) (s : Replacing α) : Option (Replacing α) :=
  (find s.str fromStr s.startPos).map fun startPos =>
    { str := replaceAt s.str startPos fromStr.length toStr
      startPos := startPos + toStr.length }

def replaceAll (str fromStr toStr : List α) : Part (List α) :=
  if fromStr = [] then Part.some str
  else (eval (replaceStep fromStr toStr) { str := str, startPos := 0 }).map Replacing.str

/-- The part in front of the position is done, and what is left of the original follows it. -/
structure Done (fromStr toStr str : List α) (s : Replacing α) : Prop where
  inside : s.startPos ≤ s.str.length
  result : s.str.take s.startPos ++ replaced fromStr toStr 0 (s.str.drop s.startPos) =
    replaced fromStr toStr 0 str

variable {fromStr toStr str : List α} {s s' : Replacing α}

theorem replaceStep_eq_some_iff : replaceStep fromStr toStr s = some s' ↔
    ∃ k, Occurrences.find fromStr (s.str.drop s.startPos) = some k ∧
      s' = { str := replaceAt s.str (s.startPos + k) fromStr.length toStr
             startPos := s.startPos + k + toStr.length } := by
  rw [replaceStep, find, Option.map_map, Option.map_eq_some_iff]
  simp only [Function.comp_apply, eq_comm]

theorem replaceStep_eq_none_iff : replaceStep fromStr toStr s = none ↔
    ¬ fromStr <:+: s.str.drop s.startPos := by
  rw [replaceStep, find, Option.map_map, Option.map_eq_none_iff, find_eq_none_iff]

theorem end_le_of_find {k : ℕ} (h : Occurrences.find fromStr (s.str.drop s.startPos) = some k)
    (hin : s.startPos ≤ s.str.length) :
    s.startPos + k + fromStr.length ≤ s.str.length := by
  obtain ⟨hk, hat, -⟩ := find_eq_some_iff.mp h
  have hfits := hat.length_le
  rw [List.length_drop, List.length_drop] at hfits
  rw [List.length_drop] at hk
  omega

theorem Done.pass (hne : fromStr ≠ []) (h : Done fromStr toStr str s)
    (hpass : replaceStep fromStr toStr s = some s') : Done fromStr toStr str s' := by
  obtain ⟨k, hfind, rfl⟩ := replaceStep_eq_some_iff.mp hpass
  have hend := end_le_of_find hfind h.inside
  have hpos : s.startPos + k ≤ s.str.length := (Nat.le_add_right _ _).trans hend
  constructor
  · rw [length_replaceAt hpos]
    exact Nat.le_add_right _ _
  · have hrest := h.result
    rw [replaced_of_find hne hfind, List.drop_drop, ← List.append_assoc, ← List.append_assoc,
      ← List.take_add, ← Nat.add_assoc] at hrest
    rw [take_replaceAt hpos, drop_replaceAt hpos]
    exact hrest

theorem left_lt_of_pass (hne : fromStr ≠ []) (h : Done fromStr toStr str s)
    (hpass : replaceStep fromStr toStr s = some s') :
    s'.str.length - s'.startPos < s.str.length - s.startPos := by
  obtain ⟨k, hfind, rfl⟩ := replaceStep_eq_some_iff.mp hpass
  have hend := end_le_of_find hfind h.inside
  have hpos : s.startPos + k ≤ s.str.length := (Nat.le_add_right _ _).trans hend
  have hlen : 0 < fromStr.length := List.length_pos_iff.mpr hne
  have hnew : (replaceAt s.str (s.startPos + k) fromStr.length toStr).length = _ :=
    length_replaceAt hpos
  dsimp only
  rw [hnew]
  omega

theorem replaceStep_variant (hne : fromStr ≠ []) :
    Variant (replaceStep fromStr toStr) (Done fromStr toStr str)
      (fun s => s.str.length - s.startPos) :=
  ⟨fun h hpass => h.pass hne hpass, fun h hpass => left_lt_of_pass hne h hpass⟩

theorem Done.str_eq (h : Done fromStr toStr str s) (hexit : replaceStep fromStr toStr s = none) :
    s.str = replaced fromStr toStr 0 str := by
  have hrest := h.result
  rw [replaced_of_absent (replaceStep_eq_none_iff.mp hexit), List.take_append_drop] at hrest
  exact hrest

/-- `replaceAll` ends, with the occurrences of the original text replaced from left to right. -/
theorem replaceAll_eq (str fromStr toStr : List α) :
    replaceAll str fromStr toStr =
      Part.some (if fromStr = [] then str else replaced fromStr toStr 0 str) := by
  rw [replaceAll]
  by_cases hne : fromStr = []
  · rw [if_pos hne, if_pos hne]
  · rw [if_neg hne, if_neg hne]
    have hstart : Done fromStr toStr str { str := str, startPos := 0 } := ⟨Nat.zero_le _, rfl⟩
    obtain ⟨s, hs, hdone⟩ := (replaceStep_variant hne).exists_mem_eval hstart
    have hexit := (mem_eval.mp hs).2
    rw [Part.eq_some_iff, Part.mem_map_iff]
    exact ⟨s, hs, hdone.str_eq hexit⟩

end TrapHandler.Utils
