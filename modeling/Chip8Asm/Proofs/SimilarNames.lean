import Mathlib
import Chip8Asm.Proofs.InsertionSort
import Chip8Asm.Text.Similarity

/-! Names similar to a given one. They are ranked by their scores and then by the names themselves,
which is a linear order of the names. So the order in which names are given does not matter. -/

namespace Chip8Asm
namespace Text

/-- The score as a number. -/
def Score.value (score : Score) : ℚ := score.num / score.den

theorem Score.le_iff {a b : Score} (ha : 0 < a.den) (hb : 0 < b.den) :
    a.le b = true ↔ a.value ≤ b.value := by
  have ha' : (0 : ℚ) < a.den := Nat.cast_pos.mpr ha
  have hb' : (0 : ℚ) < b.den := Nat.cast_pos.mpr hb
  rw [Score.le, decide_eq_true_eq, value, value, div_le_div_iff₀ ha' hb']
  exact_mod_cast Iff.rfl

theorem similarity_den_pos (left right : String) : 0 < (similarity left right).den := by
  unfold similarity
  dsimp only
  split
  · exact Nat.one_pos
  · rename_i hempty
    exact Nat.pos_of_ne_zero hempty

/-- What a name is ranked by: the score, then the name. -/
def rank (name other : String) : ℚ ×ₗ String := toLex ((similarity other name).value, other)

theorem rank_injective (name : String) : Function.Injective (rank name) :=
  fun _ _ h => congrArg (fun key => (ofLex key).2) h

theorem ranksBefore_iff {name a b : String} :
    ranksBefore (similarity a name, a) (similarity b name, b) = true ↔
      rank name b ≤ rank name a := by
  have hle := Score.le_iff (similarity_den_pos a name) (similarity_den_pos b name)
  have hge := Score.le_iff (similarity_den_pos b name) (similarity_den_pos a name)
  simp only [ranksBefore, Bool.or_eq_true, Bool.and_eq_true, Bool.not_eq_true', ← Bool.not_eq_true,
    decide_eq_true_eq, hle, hge, not_le, not_lt, rank, Prod.Lex.toLex_le_toLex]
  constructor
  · rintro (hlt | ⟨hscore, hname⟩)
    · exact .inl hlt
    · exact hscore.lt_or_eq.imp_right fun heq => ⟨heq, hname⟩
  · rintro (hlt | ⟨heq, hname⟩)
    · exact .inl hlt
    · exact .inr ⟨heq.le, hname⟩

/-- The similar names are the first three by rank of those whose score is high enough. -/
theorem similarNames_eq (name : String) (names : List String) :
    similarNames name names =
      (sorted (fun a b => ranksBefore (similarity a name, a) (similarity b name, b))
        (names.filter fun other => similarityCutoff.le (similarity other name))).take 3 := by
  have hnames : Prod.snd ∘ (fun other => (similarity other name, other)) = id := rfl
  rw [similarNames, List.filter_map, sorted_map, ← List.map_take, List.map_map, hnames, List.map_id]
  rfl

theorem similarNames_congr_of_perm (name : String) {names others : List String}
    (h : names.Perm others) : similarNames name names = similarNames name others := by
  rw [similarNames_eq, similarNames_eq]
  have hinjective : Function.Injective fun other => OrderDual.toDual (rank name other) :=
    OrderDual.toDual.injective.comp (rank_injective name)
  rw [sorted_congr_of_perm hinjective (fun _ _ => ranksBefore_iff) (h.filter _)]

end Text
end Chip8Asm
