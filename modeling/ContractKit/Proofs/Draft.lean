import ContractKit.Json.Draft
import ContractKit.Proofs.ShortNumbers

/-!
# Drafts that are whole

What is written of a JSON value piece by piece is its text if all whole numbers in it are short, and stops
at a number that is not otherwise (`Json.renders_draft`).
-/

namespace ContractKit

namespace Draft

/-- The draft is the whole text under the condition `complete`, and otherwise stops at a number. -/
def Renders (complete : Prop) (text : Text) (draft : Draft) : Prop :=
  complete ∧ draft = whole text ∨ ¬ complete ∧ draft.fault = some .tooManyDigits

namespace Renders

variable {p q : Prop} {s t : Text} {d e : Draft}

theorem whole (t : Text) : Renders True t (.whole t) :=
  .inl ⟨trivial, rfl⟩

theorem number (before : Text) (n : Int) :
    Renders (Numeral.IsShort n) (before ++ Numeral.ofInt n) (number before n) := by
  unfold Draft.number
  cases hprint : Numeral.print n with
  | ok text =>
    obtain ⟨hshort, rfl⟩ := Numeral.isShort_of_print hprint
    exact .inl ⟨hshort, rfl⟩
  | error e =>
    obtain ⟨hlong, rfl⟩ := Numeral.eq_tooManyDigits_of_print hprint
    exact .inr ⟨hlong, rfl⟩

theorem append (hd : Renders p s d) (he : Renders q t e) :
    Renders (p ∧ q) (s ++ t) (d.append e) := by
  rcases hd with ⟨hp, rfl⟩ | ⟨hp, hd⟩
  · rcases he with ⟨hq, rfl⟩ | ⟨hq, he⟩
    · exact .inl ⟨⟨hp, hq⟩, rfl⟩
    · exact .inr ⟨fun h => hq h.2, he⟩
  · refine .inr ⟨fun h => hp h.1, ?_⟩
    rw [Draft.append, hd]
    exact hd

theorem congr (h : Renders p s d) (hp : p ↔ q) (hs : s = t) : Renders q t d := by
  rwa [← hp, ← hs]

/-! Of drafts one after the other, those of fixed texts are no condition. -/

theorem nil : Renders True [] (.concat []) :=
  whole []

theorem cons {rest : List Draft} (hd : Renders p s d) (hrest : Renders q t (.concat rest)) :
    Renders (p ∧ q) (s ++ t) (.concat (d :: rest)) :=
  hd.append hrest

theorem whole_cons {rest : List Draft} (s : Text) (hrest : Renders q t (.concat rest)) :
    Renders q (s ++ t) (.concat (.whole s :: rest)) :=
  ((whole s).cons hrest).congr (iff_of_eq (true_and q)) rfl

theorem eq_whole (h : Renders p t d) (hp : p) : d = .whole t :=
  h.elim And.right fun hnot => absurd hp hnot.1

/-- Writing that does not stop has written the whole text. -/
theorem of_finish (h : Renders p t d) {u : Unit} (hd : d.finish = .ok u) : p ∧ d = .whole t := by
  rcases h with h | ⟨-, hfault⟩
  · exact h
  · rw [finish, hfault] at hd
    cases hd

end Renders

end Draft

namespace Json

open Draft (Renders)

theorem renders_behind {level : Nat} {item : Json} (before : Text)
    (h : Renders item.HasShortNumbers (prettyAt level item) (draftAt level item)) :
    Renders item.HasShortNumbers (before ++ prettyAt level item)
      (behind before item (draftAt level item)) := by
  cases item with
  | int n => exact (Renders.number before n).congr hasShortNumbers_int_iff.symm rfl
  | _ => exact ((Renders.whole before).append h).congr (by rw [true_and]) rfl

mutual

/-- A value is written to the end if its numbers are short. -/
theorem renders_draftAt (level : Nat) :
    ∀ j : Json, Renders j.HasShortNumbers (prettyAt level j) (draftAt level j)
  | .null => (Renders.whole _).congr (iff_of_true trivial .null) rfl
  | .bool value => (Renders.whole _).congr (iff_of_true trivial (.bool value)) rfl
  | .int n => (Renders.number [] n).congr hasShortNumbers_int_iff.symm rfl
  | .float value => (Renders.whole _).congr (iff_of_true trivial (.float value)) rfl
  | .str value => (Renders.whole _).congr (iff_of_true trivial (.str value)) rfl
  | .arr [] => (Renders.whole _).congr (iff_of_true trivial (.arr (by simp))) rfl
  | .arr (item :: rest) => by
    have hitems := renders_draftItems (level + 1) "[" (item :: rest) (by simp)
    exact (hitems.cons (.whole_cons _ (.whole_cons _ .nil))).congr
      (by simp [hasShortNumbers_arr_iff]) (by simp [prettyAt, Text.concat])
  | .obj [] => (Renders.whole _).congr (iff_of_true trivial .obj_nil) rfl
  | .obj (member :: rest) => by
    have hmembers := renders_draftMembers (level + 1) (member :: rest)
    exact (Renders.whole_cons _ (hmembers.cons (.whole_cons _ (.whole_cons _ .nil)))).congr
      (by simp [hasShortNumbers_obj_iff]) (by simp [prettyAt, Text.concat])

theorem renders_draftItems (level : Nat) (mark : Text) : ∀ items : List Json, items ≠ [] →
    Renders (∀ item ∈ items, item.HasShortNumbers) (mark ++ prettyItems level items)
      (draftItems level mark items)
  | [], h => absurd rfl h
  | [item], _ => by
    have hitem := renders_behind (mark ++ newLine level) (renders_draftAt level item)
    exact (hitem.cons (.whole_cons [] .nil)).congr (by simp) (by simp [prettyItems, Text.concat])
  | item :: next :: rest, _ => by
    have hitem := renders_behind (mark ++ newLine level) (renders_draftAt level item)
    have hrest := renders_draftItems level "," (next :: rest) (by simp)
    exact (hitem.cons (hrest.cons .nil)).congr (by simp) (by simp [prettyItems, Text.concat])

theorem renders_draftMembers (level : Nat) : ∀ members : List (Text × Json),
    Renders (∀ member ∈ members, member.2.HasShortNumbers) (prettyMembers level members)
      (draftMembers level members)
  | [] => (Renders.whole []).congr (by simp) rfl
  | [(name, item)] => by
    have hitem := renders_draftAt level item
    exact (Renders.whole_cons _ (.whole_cons _ (.whole_cons _ (hitem.cons .nil)))).congr (by simp)
      (by simp [prettyMembers, Text.concat])
  | (name, item) :: next :: rest => by
    have hitem := renders_draftAt level item
    have hrest := renders_draftMembers level (next :: rest)
    exact (Renders.whole_cons _ (.whole_cons _ (.whole_cons _ (hitem.cons
      (.whole_cons _ (hrest.cons .nil)))))).congr (by simp) (by simp [prettyMembers, Text.concat])

end

theorem renders_draft (j : Json) : Renders j.HasShortNumbers j.pretty j.draft :=
  renders_draftAt 0 j

end Json

end ContractKit
