import TrapHandler.ByteReader

/-!
# What an accepted run has read

A stretch of memory is a word of a formal language. The rules take an accepted run apart from the
front: what the first reader has accepted fixes the language of the bytes it moved over, and the
rest of the run is accepted from behind them.
-/

namespace ByteReader

open Reader

/-- The bytes from offset `p` up to offset `q` are a word of `L`. -/
def Spans (mem : Memory) (p q : ℕ) (L : Language UInt8) : Prop :=
  ∃ bs ∈ L, HoldsAt mem p bs ∧ q = p + bs.length

variable {α β : Type} {mem : Memory} {p q r : ℕ} {L M : Language UInt8}

theorem spans_one (mem : Memory) (p : ℕ) : Spans mem p p 1 :=
  ⟨[], Language.nil_mem_one, holdsAt_nil mem p, rfl⟩

theorem Spans.append (h₁ : Spans mem p q L) (h₂ : Spans mem q r M) : Spans mem p r (L * M) := by
  obtain ⟨bs, hbs, hmem₁, rfl⟩ := h₁
  obtain ⟨cs, hcs, hmem₂, rfl⟩ := h₂
  refine ⟨bs ++ cs, Language.append_mem_mul hbs hcs, ?_, ?_⟩
  · exact holdsAt_append.mpr ⟨hmem₁, hmem₂⟩
  · rw [List.length_append, Nat.add_assoc]

theorem Spans.mono (h : Spans mem p q L) (hle : ∀ bs ∈ L, bs ∈ M) : Spans mem p q M := by
  obtain ⟨bs, hbs, hmem, hq⟩ := h
  exact ⟨bs, hle bs hbs, hmem, hq⟩

theorem accepts_peek_bind {f : UInt8 → Reader β} {b : β} {c : Cursor} :
    Accepts (peek >>= f) mem (some p) b c ↔ Accepts (f (mem p)) mem (some p) b c :=
  (peek_accepts mem p).bind_iff

theorem accepts_advance_bind {f : Unit → Reader β} {b : β} {c : Cursor} :
    Accepts (advance >>= f) mem (some p) b c ↔ Accepts (f ()) mem (some (p + 1)) b c :=
  (advance_accepts mem p).bind_iff

theorem accepts_offset_bind {f : ℕ → Reader β} {b : β} {c : Cursor} :
    Accepts (offset >>= f) mem (some p) b c ↔ Accepts (f p) mem (some p) b c :=
  (offset_accepts mem p).bind_iff

theorem accepts_require_bind {x : Bool} {f : Unit → Reader β} {b : β} {c c' : Cursor} :
    Accepts (require x >>= f) mem c b c' ↔ x = true ∧ Accepts (f ()) mem c b c' := by
  cases x with
  | true => exact ⟨fun h => ⟨rfl, h⟩, fun h => h.2⟩
  | false => exact ⟨nofun, nofun⟩

theorem not_accepts_peek_none {f : UInt8 → Reader β} {b : β} {c : Cursor} :
    ¬ Accepts (peek >>= f) mem none b c := by
  rw [accepts_bind]
  rintro ⟨a, c', ha, _⟩
  exact nomatch ha

end ByteReader
