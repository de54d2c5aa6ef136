import Liquid.Fields.Basic

/-!
# The order of tables

Every operation on a table keeps its names strictly ascending. In that order a table is determined
by its entries: two tables that answer every look-up alike are the same list.
-/

namespace Liquid

namespace Fields

variable {α : Type}

def Sorted (fields : Fields α) : Prop := List.Pairwise (fun a b => a.1 < b.1) fields

theorem mem_insert {key : String} {entry : α} {fields : Fields α} {field : String × α}
    (h : field ∈ insert key entry fields) : field = (key, entry) ∨ field ∈ fields := by
  induction fields with
  | nil => simpa [insert] using h
  | cons first rest ih =>
    obtain ⟨k, e⟩ := first
    rw [insert] at h
    split at h
    · simpa using h
    · split at h
      · rcases List.mem_cons.1 h with h | h
        · exact .inl h
        · exact .inr (List.mem_cons_of_mem _ h)
      · rcases List.mem_cons.1 h with rfl | h
        · simp
        · exact (ih h).imp_right (List.mem_cons_of_mem _)

theorem mem_overlay {upper lower : Fields α} {field : String × α}
    (h : field ∈ overlay upper lower) : field ∈ upper ∨ field ∈ lower := by
  unfold overlay at h
  induction upper generalizing lower with
  | nil => exact .inr h
  | cons first rest ih =>
    rcases ih h with h | h
    · exact .inl (List.mem_cons_of_mem _ h)
    · rcases mem_insert h with rfl | h
      · exact .inl List.mem_cons_self
      · exact .inr h

theorem Sorted.insert {fields : Fields α} (h : Sorted fields) (key : String) (entry : α) :
    Sorted (insert key entry fields) := by
  induction fields with
  | nil => simp [Fields.insert, Sorted]
  | cons field rest ih =>
    obtain ⟨k, e⟩ := field
    obtain ⟨hk, hrest⟩ := List.pairwise_cons.1 h
    rw [Fields.insert]
    split
    · rename_i hlt
      refine List.pairwise_cons.2 ⟨fun field hf => ?_, h⟩
      rcases List.mem_cons.1 hf with rfl | hf
      · exact hlt
      · exact String.lt_trans hlt (hk field hf)
    · rename_i hnlt
      split
      · rename_i heq
        subst heq
        exact List.pairwise_cons.2 ⟨hk, hrest⟩
      · rename_i hne
        refine List.pairwise_cons.2 ⟨fun field hf => ?_, ih hrest⟩
        rcases mem_insert hf with rfl | hf
        · exact Decidable.byContradiction fun hkk =>
            hne (String.le_antisymm (String.not_lt.1 hkk) (String.not_lt.1 hnlt))
        · exact hk field hf

theorem Sorted.erase {fields : Fields α} (h : Sorted fields) (key : String) :
    Sorted (erase key fields) := List.Pairwise.filter _ h

theorem Sorted.modify {fields : Fields α} (h : Sorted fields) (key : String) (f : α → α) :
    Sorted (modify key f fields) := by
  have names (fields : Fields α) :
      (Fields.modify key f fields).map Prod.fst = fields.map Prod.fst := by
    induction fields with
    | nil => rfl
    | cons field rest ih =>
      obtain ⟨k, e⟩ := field
      rw [Fields.modify]
      split
      · rfl
      · simp [ih]
  have hn : ((Fields.modify key f fields).map Prod.fst).Pairwise (· < ·) := by
    rw [names]
    exact List.pairwise_map.2 h
  exact List.pairwise_map.1 hn

theorem Sorted.overlay {lower : Fields α} (h : Sorted lower) (upper : Fields α) :
    Sorted (overlay upper lower) := by
  unfold Fields.overlay
  induction upper generalizing lower with
  | nil => exact h
  | cons field rest ih => exact ih (h.insert field.1 field.2)

theorem sorted_ofList (entries : List (String × α)) : Sorted (ofList entries) :=
  Sorted.overlay (by simp [Sorted]) entries

theorem sorted_sorted (entries : List (String × α)) : Sorted (sorted entries) := by
  induction entries with
  | nil => simp [sorted, Sorted]
  | cons entry rest ih => exact ih.insert entry.1 entry.2

theorem find?_sorted (key : String) (entries : List (String × α)) :
    find? key (sorted entries) = find? key entries := by
  induction entries with
  | nil => rfl
  | cons entry rest ih =>
    obtain ⟨k, e⟩ := entry
    change find? key (Fields.insert k e (sorted rest)) = _
    rw [find?_insert, ih, find?]

theorem find?_eq_none_of_lt {key : String} {fields : Fields α}
    (h : ∀ field ∈ fields, key < field.1) : find? key fields = none := by
  induction fields with
  | nil => rfl
  | cons field rest ih =>
    obtain ⟨k, e⟩ := field
    have hk : key < k := h (k, e) (by simp)
    have hne : key ≠ k := fun heq => String.lt_irrefl k (heq ▸ hk)
    rw [find?, if_neg hne]
    exact ih fun field hf => h field (by simp [hf])

/-- Two tables in order that have the same entries are the same list. -/
theorem Sorted.ext {a b : Fields α} (ha : Sorted a) (hb : Sorted b)
    (h : ∀ key, find? key a = find? key b) : a = b := by
  induction a generalizing b with
  | nil =>
    cases b with
    | nil => rfl
    | cons field rest => simpa [find?] using h field.1
  | cons first as ih =>
    obtain ⟨j, x⟩ := first
    obtain ⟨hj, has⟩ := List.pairwise_cons.1 ha
    cases b with
    | nil => simpa [find?] using h j
    | cons second bs =>
      obtain ⟨k, y⟩ := second
      obtain ⟨hk, hbs⟩ := List.pairwise_cons.1 hb
      have hjk : j = k := by
        refine String.le_antisymm (String.not_lt.1 fun hlt => ?_) (String.not_lt.1 fun hlt => ?_)
        · have hnone : find? k ((j, x) :: as) = none :=
            find?_eq_none_of_lt (List.forall_mem_cons.2
              ⟨hlt, fun field hf => String.lt_trans hlt (hj field hf)⟩)
          have hk := h k
          rw [hnone] at hk
          simp [find?] at hk
        · have hnone : find? j ((k, y) :: bs) = none :=
            find?_eq_none_of_lt (List.forall_mem_cons.2
              ⟨hlt, fun field hf => String.lt_trans hlt (hk field hf)⟩)
          have hj := h j
          rw [hnone] at hj
          simp [find?] at hj
      subst hjk
      have hxy : x = y := by simpa [find?] using h j
      subst hxy
      rw [ih has hbs fun key => ?_]
      by_cases hkey : key = j
      · subst hkey
        rw [find?_eq_none_of_lt hj, find?_eq_none_of_lt hk]
      · simpa [find?, hkey] using h key

end Fields

end Liquid
