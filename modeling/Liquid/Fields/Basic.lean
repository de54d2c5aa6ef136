/-!
# Named entries in key order

A table from names to entries is a list of pairs in strictly ascending order of names. Every
operation keeps that order, so two tables with the same entries are the same list.
-/

namespace Liquid

/-- A table from names to entries, in ascending order of names. -/
abbrev Fields (α : Type) := List (String × α)

namespace Fields

variable {α : Type}

def find? (key : String) : Fields α → Option α
  | [] => none
  | (k, entry) :: rest => if key = k then some entry else find? key rest

def contains (key : String) (fields : Fields α) : Bool := (find? key fields).isSome

/-- Puts an entry under `key`, in place of the one that was there. -/
def insert (key : String) (entry : α) : Fields α → Fields α
  | [] => [(key, entry)]
  | (k, e) :: rest =>
    if key < k then (key, entry) :: (k, e) :: rest
    else if key = k then (key, entry) :: rest
    else (k, e) :: insert key entry rest

def erase (key : String) (fields : Fields α) : Fields α :=
  List.filter (fun field => field.1 != key) fields

/-- Changes the entry under `key`, if there is one. -/
def modify (key : String) (f : α → α) : Fields α → Fields α
  | [] => []
  | (k, e) :: rest => if key = k then (k, f e) :: rest else (k, e) :: modify key f rest

/-- Puts all entries of `upper` over those of `lower`. -/
def overlay (upper lower : Fields α) : Fields α :=
  List.foldl (fun fields field => insert field.1 field.2 fields) lower upper

/-- The table of a list of entries in any order; of two entries of one name the later counts. -/
def ofList (entries : List (String × α)) : Fields α := overlay entries []

/-- The table of a list of entries in any order; of two entries of one name the earlier counts. -/
def sorted (entries : List (String × α)) : Fields α :=
  List.foldr (fun field fields => insert field.1 field.2 fields) [] entries

@[simp]
theorem find?_insert (key other : String) (entry : α) (fields : Fields α) :
    find? other (insert key entry fields) =
      if other = key then some entry else find? other fields := by
  induction fields with
  | nil => simp [insert, find?]
  | cons field rest ih =>
    obtain ⟨k, e⟩ := field
    rw [insert]
    split
    · simp [find?]
    · split
      · rename_i h
        subst h
        by_cases ho : other = key <;> simp [find?, ho]
      · rename_i hne
        rw [find?, ih, find?]
        by_cases ho : other = k
        · simp [ho, Ne.symm hne]
        · simp [ho]

@[simp]
theorem find?_erase (key other : String) (fields : Fields α) :
    find? other (erase key fields) = if other = key then none else find? other fields := by
  induction fields with
  | nil => simp [erase, find?]
  | cons field rest ih =>
    obtain ⟨k, e⟩ := field
    unfold erase at ih ⊢
    by_cases hk : k = key
    · subst hk
      rw [List.filter_cons_of_neg (by simp), ih]
      by_cases ho : other = k <;> simp [find?, ho]
    · rw [List.filter_cons_of_pos (by simpa using hk), find?, ih, find?]
      by_cases ho : other = k
      · simp [ho, hk]
      · simp [ho]

@[simp]
theorem find?_modify (key other : String) (f : α → α) (fields : Fields α) :
    find? other (modify key f fields) =
      if other = key then (find? other fields).map f else find? other fields := by
  induction fields with
  | nil => simp [modify, find?]
  | cons field rest ih =>
    obtain ⟨k, e⟩ := field
    rw [modify]
    split
    · rename_i h
      subst h
      by_cases ho : other = key <;> simp [find?, ho]
    · rename_i hne
      rw [find?, ih, find?]
      by_cases ho : other = k
      · simp [ho, Ne.symm hne]
      · simp [ho]

theorem find?_overlay (key : String) (upper lower : Fields α) :
    find? key (overlay upper lower) = (find? key upper.reverse).or (find? key lower) := by
  have find?_append (a b : Fields α) : find? key (a ++ b) = (find? key a).or (find? key b) := by
    induction a with
    | nil => rfl
    | cons field rest ih =>
      obtain ⟨k, e⟩ := field
      rw [List.cons_append, find?, find?, ih]
      split <;> simp
  unfold overlay
  induction upper generalizing lower with
  | nil => rfl
  | cons field rest ih =>
    obtain ⟨k, e⟩ := field
    rw [List.foldl_cons, ih, List.reverse_cons, find?_append, find?_insert, Option.or_assoc]
    congr 1
    rw [find?, find?]
    split <;> simp

theorem find?_ofList (key : String) (entries : List (String × α)) :
    find? key (ofList entries) = find? key entries.reverse := by
  rw [ofList, find?_overlay]
  exact Option.or_none

theorem find?_eq_lookup (key : String) (fields : Fields α) :
    find? key fields = fields.lookup key := by
  induction fields with
  | nil => rfl
  | cons field rest ih =>
    obtain ⟨k, e⟩ := field
    rw [find?, List.lookup_cons, ih]
    by_cases hk : key = k
    · rw [if_pos hk, beq_iff_eq.2 hk]
    · rw [if_neg hk, beq_false_of_ne hk]

theorem mem_of_find? {key : String} {entry : α} {fields : Fields α}
    (h : find? key fields = some entry) : (key, entry) ∈ fields := by
  induction fields with
  | nil => cases h
  | cons field rest ih =>
    obtain ⟨k, e⟩ := field
    rw [find?] at h
    by_cases hk : key = k
    · subst hk
      rw [if_pos rfl, Option.some.injEq] at h
      simp [h]
    · rw [if_neg hk] at h
      exact List.mem_cons_of_mem _ (ih h)

theorem mem_of_find?_ofList {key : String} {entry : α} {entries : List (String × α)}
    (h : find? key (ofList entries) = some entry) : (key, entry) ∈ entries := by
  have hover : find? key (ofList entries) = find? key entries.reverse := by
    unfold ofList
    rw [find?_overlay]
    simp [find?]
  rw [hover] at h
  exact List.mem_reverse.1 (mem_of_find? h)

end Fields

end Liquid
