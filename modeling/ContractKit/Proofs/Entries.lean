import ContractKit.Entries
import Mathlib.Tactic

/-!
# Entries under distinct names

Lists without repetition are what `List.eraseDups` leaves as it is. Entries that come from pairs have
distinct names (`Entries.nodup_names_ofList`), and pairs with distinct names are such entries already
(`Entries.ofList_of_nodup`).
-/

namespace ContractKit

/-! ## Repetitions -/

section

variable {α : Type} [BEq α] [LawfulBEq α]

omit [LawfulBEq α] in
theorem length_eraseDups_le : ∀ as : List α, as.eraseDups.length ≤ as.length
  | [] => by simp
  | a :: as => by
    rw [List.eraseDups_cons, List.length_cons, List.length_cons]
    have hfilter := List.length_filter_le (fun b => !b == a) as
    have := length_eraseDups_le (as.filter fun b => !b == a)
    omega
termination_by as => as.length
decreasing_by
  rw [List.length_cons]
  omega

theorem nodup_eraseDups : ∀ as : List α, as.eraseDups.Nodup
  | [] => by simp
  | a :: as => by
    rw [List.eraseDups_cons, List.nodup_cons]
    refine ⟨fun hmem => ?_, nodup_eraseDups _⟩
    have := (List.mem_filter.mp (List.mem_eraseDups.mp hmem)).2
    simp at this
termination_by as => as.length
decreasing_by
  have := List.length_filter_le (fun b => !b == a) as
  rw [List.length_cons]
  omega

theorem eraseDups_of_nodup {as : List α} (h : as.Nodup) : as.eraseDups = as := by
  induction as with
  | nil => rfl
  | cons a as ih =>
    obtain ⟨ha, has⟩ := List.nodup_cons.mp h
    have hfilter : as.filter (fun b => !b == a) = as := by
      rw [List.filter_eq_self]
      intro b hb
      have hne : b ≠ a := fun heq => ha (heq ▸ hb)
      simp [hne]
    rw [List.eraseDups_cons, hfilter, ih has]

theorem nodup_iff_length_eraseDups {as : List α} :
    as.eraseDups.length = as.length ↔ as.Nodup := by
  refine ⟨fun h => ?_, fun h => by rw [eraseDups_of_nodup h]⟩
  induction as with
  | nil => exact List.nodup_nil
  | cons a as ih =>
    rw [List.eraseDups_cons, List.length_cons, List.length_cons] at h
    have hlen := length_eraseDups_le (as.filter fun b => !b == a)
    have hall : as.filter (fun b => !b == a) = as := by
      refine List.filter_sublist.eq_of_length_le ?_
      omega
    rw [hall] at h
    refine List.nodup_cons.mpr ⟨fun hmem => ?_, ih (by omega)⟩
    rw [← hall] at hmem
    have := (List.mem_filter.mp hmem).2
    simp at this

/-- A list keeps at most one item without its repetitions when all of its items are equal. -/
theorem length_eraseDups_le_one_iff {as : List α} :
    ¬ 1 < as.eraseDups.length ↔ ∀ a ∈ as, ∀ b ∈ as, a = b := by
  constructor
  · intro h a ha b hb
    have ha := List.mem_eraseDups.mpr ha
    have hb := List.mem_eraseDups.mpr hb
    match heq : as.eraseDups with
    | [] => simp [heq] at ha
    | [c] =>
      rw [heq, List.mem_singleton] at ha hb
      rw [ha, hb]
    | c :: d :: rest => simp [heq] at h
  · intro h hlt
    have hnodup := nodup_eraseDups as
    match heq : as.eraseDups with
    | [] => simp [heq] at hlt
    | [c] => simp [heq] at hlt
    | c :: d :: rest =>
      rw [heq] at hnodup
      have hc : c ∈ as := List.mem_eraseDups.mp (by simp [heq])
      have hd : d ∈ as := List.mem_eraseDups.mp (by simp [heq])
      have hne : c ≠ d := by
        rintro rfl
        simp at hnodup
      exact hne (h c hc d hd)

end

/-! ## Entries -/

namespace Entries

variable {α : Type}

theorem insert_of_notMem {name : Text} {item : α} : ∀ {entries : Entries α},
    name ∉ entries.names → insert name item entries = entries ++ [(name, item)]
  | [], _ => rfl
  | (key, old) :: rest, h => by
    rw [names, List.map_cons, List.mem_cons, not_or] at h
    obtain ⟨hkey, hrest⟩ := h
    rw [insert, if_neg (fun heq => hkey heq.symm), insert_of_notMem hrest]
    rfl

theorem names_insert (name : Text) (item : α) : ∀ entries : Entries α,
    (insert name item entries).names =
      if name ∈ entries.names then entries.names else entries.names ++ [name]
  | [] => rfl
  | (key, old) :: rest => by
    have ih := names_insert name item rest
    unfold names at ih ⊢
    rw [insert]
    by_cases hkey : key = name
    · simp [hkey]
    · rw [if_neg hkey, List.map_cons, ih]
      have hne : name ≠ key := fun heq => hkey heq.symm
      by_cases hmem : name ∈ rest.map (·.1) <;> simp [hmem, hne]

theorem nodup_names_insert {name : Text} {item : α} {entries : Entries α}
    (h : entries.names.Nodup) : (insert name item entries).names.Nodup := by
  rw [names_insert]
  split_ifs with hmem
  · exact h
  · rw [List.nodup_append]
    refine ⟨h, List.nodup_singleton _, ?_⟩
    intro a ha b hb
    rw [List.mem_singleton.mp hb]
    rintro rfl
    exact hmem ha

theorem mem_insert {name : Text} {item : α} {entry : Text × α} : ∀ {entries : Entries α},
    entry ∈ insert name item entries → entry = (name, item) ∨ entry ∈ entries
  | [], h => Or.inl (List.mem_singleton.mp h)
  | (key, old) :: rest, h => by
    rw [insert] at h
    split_ifs at h with hkey
    · rcases List.mem_cons.mp h with rfl | h
      · exact Or.inl (by rw [hkey])
      · exact Or.inr (List.mem_cons_of_mem _ h)
    · rcases List.mem_cons.mp h with rfl | h
      · exact Or.inr List.mem_cons_self
      · exact (mem_insert h).imp_right (List.mem_cons_of_mem _)

theorem mem_of_mem_ofList {pairs : List (Text × α)} {entry : Text × α}
    (h : entry ∈ ofList pairs) : entry ∈ pairs := by
  have hfold : ∀ (pairs : List (Text × α)) (entries : Entries α),
      entry ∈ pairs.foldl (fun entries pair => insert pair.1 pair.2 entries) entries →
        entry ∈ pairs ∨ entry ∈ entries := by
    intro pairs
    induction pairs with
    | nil => exact fun _ h => Or.inr h
    | cons pair pairs ih =>
      intro entries h
      rcases ih _ h with h | h
      · exact Or.inl (List.mem_cons_of_mem _ h)
      · rcases mem_insert h with rfl | h
        · exact Or.inl List.mem_cons_self
        · exact Or.inr h
  exact (hfold pairs [] h).resolve_right (by simp)

theorem nodup_names_ofList (pairs : List (Text × α)) : (ofList pairs).names.Nodup := by
  have hfold : ∀ (pairs : List (Text × α)) (entries : Entries α), entries.names.Nodup →
      (pairs.foldl (fun entries pair => insert pair.1 pair.2 entries) entries).names.Nodup := by
    intro pairs
    induction pairs with
    | nil => exact fun _ h => h
    | cons pair pairs ih => exact fun entries h => ih _ (nodup_names_insert h)
  exact hfold pairs [] List.nodup_nil

theorem get?_eq_none {name : Text} : ∀ {entries : Entries α}, name ∉ entries.names →
    get? name entries = none
  | [], _ => rfl
  | (key, _) :: rest, h => by
    rw [names, List.map_cons, List.mem_cons, not_or] at h
    rw [get?, if_neg fun heq => h.1 heq.symm, get?_eq_none h.2]

theorem mem_names_iff {name : Text} : ∀ {entries : Entries α},
    name ∈ entries.names ↔ ∃ item, get? name entries = some item
  | [] => by simp [names, get?]
  | (key, item) :: rest => by
    have ih : name ∈ names rest ↔ ∃ item, get? name rest = some item := mem_names_iff
    by_cases hkey : key = name
    · simp [names, get?, hkey]
    · have hne : name ≠ key := fun heq => hkey heq.symm
      rw [names] at ih
      simp [names, get?, hkey, hne, ← ih]

/-- Entries made of records have under a name what is made of the first record of the name. -/
theorem get?_map {β : Type} (key : β → Text) (item : β → α) (name : Text) (records : List β) :
    get? name (records.map fun record => (key record, item record)) =
      (records.find? fun record => key record = name).map item := by
  induction records with
  | nil => rfl
  | cons record rest ih => by_cases hkey : key record = name <;> simp [get?, hkey, ih]

/-- Leaving out entries leaves the others as they are. -/
theorem get?_filter (p : α → Bool) (name : Text) : ∀ {entries : Entries α}, entries.names.Nodup →
    get? name (entries.filter fun entry => p entry.2) = (get? name entries).filter p
  | [], _ => rfl
  | (key, item) :: rest, h => by
    obtain ⟨hkey, hrest⟩ := List.nodup_cons.mp h
    have ih := get?_filter p name hrest
    by_cases heq : key = name
    · have hnone : get? name rest = none := get?_eq_none (heq ▸ hkey)
      cases hp : p item <;> simp [get?, Option.filter_some, hp, heq, ih, hnone]
    · cases hp : p item <;> simp [get?, hp, heq, ih]

theorem get?_insert (key name : Text) (item : α) : ∀ entries : Entries α,
    get? name (insert key item entries) = if key = name then some item else get? name entries
  | [] => rfl
  | (other, old) :: rest => by
    by_cases hkey : other = key
    · subst hkey
      by_cases hname : other = name <;> simp [insert, get?, hname]
    · rw [insert, if_neg hkey, get?, get?, get?_insert key name item rest]
      by_cases hname : other = name
      · rw [if_pos hname, if_pos hname, if_neg fun heq => hkey (hname.trans heq.symm)]
      · rw [if_neg hname, if_neg hname]

theorem ofList_concat (pairs : List (Text × α)) (pair : Text × α) :
    ofList (pairs ++ [pair]) = insert pair.1 pair.2 (ofList pairs) := by
  rw [ofList, List.foldl_append]
  rfl

/-- What stands under a name comes from the pairs of that name. -/
theorem get?_ofList_filter (name : Text) (pairs : List (Text × α)) :
    get? name (ofList (pairs.filter fun pair => pair.1 = name)) = get? name (ofList pairs) := by
  induction pairs using List.reverseRecOn with
  | nil => rfl
  | append_singleton pairs pair ih =>
    rw [List.filter_append, ofList_concat, get?_insert]
    by_cases hname : pair.1 = name
    · have hkept : [pair].filter (fun pair => pair.1 = name) = [pair] := by simp [hname]
      rw [hkept, ofList_concat, get?_insert, if_pos hname, if_pos hname]
    · have hdropped : [pair].filter (fun pair => pair.1 = name) = [] := by simp [hname]
      rw [hdropped, List.append_nil, ih, if_neg hname]

/-- Pairs with distinct names are entries as they are. -/
theorem ofList_of_nodup {pairs : List (Text × α)} (h : (names pairs).Nodup) :
    ofList pairs = pairs := by
  have hfold : ∀ (pairs : List (Text × α)) (entries : Entries α),
      (names (entries ++ pairs)).Nodup →
      pairs.foldl (fun entries pair => insert pair.1 pair.2 entries) entries = entries ++ pairs := by
    intro pairs
    induction pairs with
    | nil => simp
    | cons pair pairs ih =>
      intro entries h
      have hnew : pair.1 ∉ entries.names := by
        unfold names at h ⊢
        rw [List.map_append, List.nodup_append] at h
        exact fun hmem => h.2.2 _ hmem pair.1 (by simp) rfl
      rw [List.foldl_cons, insert_of_notMem hnew, ih _ (by simpa using h), List.append_assoc]
      rfl
  exact hfold pairs [] h

end Entries

end ContractKit
