import Liquid.Proofs.Token.Print
import Liquid.Text.Fragment

/-!
# Texts that are one fragment

A quoted text with something between its quotes, or a run of bare characters without quotes, is read
as one fragment wherever it stands, as long as no bare character follows.
-/

namespace Liquid.Text

lemma isBare_of_isQuote {c : Char} (h : isQuote c = true) : isBare c = true := by
  have hcases : c = '"' ∨ c = '\'' := by simpa [isQuote] using h
  obtain rfl | rfl := hcases <;> decide

lemma isBlank_of_isBare {c : Char} (h : isBare c = true) : isBlank c = false := by
  simp only [isBare, Bool.and_eq_true, Bool.not_eq_true'] at h
  exact h.1.1

lemma isBlank_of_isQuote {c : Char} (h : isQuote c = true) : isBlank c = false :=
  isBlank_of_isBare (isBare_of_isQuote h)

lemma ne_colon_of_isQuote {c : Char} (h : isQuote c = true) : c ≠ ':' := by
  rintro rfl
  cases h

lemma isBare_of_isBlank {c : Char} (h : isBlank c = true) : isBare c = false := by
  simp [isBare, h]

lemma isQuote_of_isBlank {c : Char} (h : isBlank c = true) : isQuote c = false :=
  Bool.eq_false_iff.2 fun hq => by simp [isBlank_of_isQuote hq] at h

lemma isBare_of_isWord {c : Char} (h : isWord c = true) : isBare c = true ∧ isQuote c = false := by
  have hblank := isBlank_of_isWord h
  have hne (d : Char) (hd : isWord d = false) : c ≠ d := by
    rintro rfl
    rw [h] at hd
    cases hd
  have hcomma := hne ',' (by decide)
  have hbar := hne '|' (by decide)
  have hdouble := hne '"' (by decide)
  have hsingle := hne '\'' (by decide)
  exact ⟨by simp [isBare, hblank, hcomma, hbar], by simp [isQuote, hdouble, hsingle]⟩

lemma dropBlanks_append {pad cs : List Char} (hpad : ∀ c ∈ pad, isBlank c = true)
    (hcs : ∀ c ∈ cs.head?, isBlank c = false) : dropBlanks (pad ++ cs) = cs := by
  unfold dropBlanks
  rw [List.dropWhile_append_of_pos hpad]
  cases cs with
  | nil => rfl
  | cons c rest => exact List.dropWhile_cons_of_neg (by simp [hcs c (by simp)])

lemma dropBlanks_space {cs : List Char} (hcs : ∀ c ∈ cs.head?, isBlank c = false) :
    dropBlanks (' ' :: cs) = cs :=
  @dropBlanks_append [' '] cs (by simpa using isBlank_space) hcs

lemma dropBlanks_eq_nil {pad : List Char} (hpad : ∀ c ∈ pad, isBlank c = true) :
    dropBlanks pad = [] := by
  have hall := @dropBlanks_append pad [] hpad (by simp)
  rwa [List.append_nil] at hall

lemma exists_of_append_eq {α : Type} {xs ys before after : List α} {c : α}
    (h : xs ++ ys = before ++ c :: after) :
    (∃ more, before = xs ++ more ∧ ys = more ++ c :: after) ∨
      ∃ more, xs = before ++ c :: more ∧ after = more ++ ys := by
  rcases List.append_eq_append_iff.1 h with hys | ⟨more, hxs, hafter⟩
  · exact .inl hys
  · cases more with
    | nil => exact .inl ⟨[], by simpa using hxs.symm, hafter.symm⟩
    | cons d more =>
      obtain ⟨rfl, rfl⟩ := List.cons.inj hafter
      exact .inr ⟨more, hxs, rfl⟩

lemma exists_dropWhile (p : Char → Bool) (front : List Char) (last : Char) :
    (∀ c ∈ front ++ [last], p c = true) ∨
      ∃ before after, front = before ++ after ∧
        ∀ tail, (front ++ last :: tail).dropWhile p = after ++ last :: tail := by
  induction front with
  | nil =>
    cases hp : p last with
    | true => exact .inl (by simpa using hp)
    | false =>
      exact .inr ⟨[], [], rfl, fun _ => List.dropWhile_cons_of_neg (by simp [hp])⟩
  | cons c front ih =>
    cases hp : p c with
    | true =>
      rcases ih with hall | ⟨before, after, rfl, hdrop⟩
      · exact .inl (List.forall_mem_cons.2 ⟨hp, hall⟩)
      · refine .inr ⟨c :: before, after, rfl, fun tail => ?_⟩
        rw [List.cons_append, List.dropWhile_cons_of_pos hp, hdrop]
    | false =>
      exact .inr ⟨[], c :: front, rfl, fun _ => List.dropWhile_cons_of_neg (by simp [hp])⟩

lemma exists_dropBlanks {last : Char} (hlast : isBare last = true) (front : List Char) :
    ∃ before after, front = before ++ after ∧
      ∀ tail, dropBlanks (front ++ last :: tail) = after ++ last :: tail := by
  rcases exists_dropWhile isBlank front last with hall | hdrop
  · have hblank := hall last (by simp)
    rw [isBlank_of_isBare hlast] at hblank
    cases hblank
  · exact hdrop

lemma exists_of_run_quoted {cs found rest : List Char}
    (h : quoted.run cs = some (found, rest)) :
    ∃ q inner, isQuote q = true ∧ found = q :: (inner ++ [q]) ∧ q ∉ inner ∧
      cs = q :: inner ++ q :: rest := by
  cases cs with
  | nil => cases h
  | cons q cs =>
    simp only [quoted, quotedWith] at h
    split at h
    · rename_i hq
      split at h
      · rename_i inner behind hsplit
        obtain ⟨rfl, hinner⟩ := splitAtChar?_eq_some hsplit
        split at h
        · cases h
          exact ⟨q, inner, hq, rfl, hinner, rfl⟩
        · cases h
      · cases h
    · cases h

lemma run_fragment_eq_none_iff {cs : List Char} :
    fragment.run cs = none ↔ ∀ c ∈ cs.head?, isBare c = false := by
  cases cs with
  | nil => simp [fragment, Pattern.orElse, quoted, quotedWith, bare, run]
  | cons c cs =>
    cases hc : isBare c with
    | true => simp [fragment, Pattern.orElse, bare, run, hc]
    | false =>
      have hquote : isQuote c = false :=
        Bool.eq_false_iff.2 fun hq => by simp [isBare_of_isQuote hq] at hc
      simp [fragment, Pattern.orElse, quoted, quotedWith, bare, run, hc, hquote]

lemma exists_eq_of_find? {cs a rest : List Char} (h : fragment.find? cs = some (a, rest)) :
    ∃ pad, cs = pad ++ (a ++ rest) := by
  induction cs with
  | nil => cases h
  | cons c cs ih =>
    rcases Option.or_eq_some_iff.1 h with hrun | ⟨-, hrest⟩
    · refine ⟨[], ?_⟩
      rw [eq_append_of_fragment hrun, List.nil_append]
    · obtain ⟨pad, rfl⟩ := ih hrest
      exact ⟨c :: pad, rfl⟩

/-- A text that is one fragment: a quoted text with something in it, or a run of bare characters
that are no quotes. -/
inductive IsFragment : List Char → Prop
  | quoted {q : Char} {inner : List Char} (hq : isQuote q = true) (hne : inner ≠ [])
      (hinner : q ∉ inner) : IsFragment (q :: (inner ++ [q]))
  | bare {cs : List Char} (hne : cs ≠ [])
      (hchars : ∀ c ∈ cs, isBare c = true ∧ isQuote c = false) : IsFragment cs

namespace IsFragment

variable {cs pad rest : List Char}

lemma of_all (hne : cs ≠ []) (h : cs.all (fun c => isBare c && !isQuote c) = true) :
    IsFragment cs :=
  .bare hne fun c hc => by simpa using List.all_eq_true.1 h c hc

lemma exists_head (h : IsFragment cs) : ∃ c tail, cs = c :: tail ∧ isBlank c = false := by
  cases h with
  | quoted hq _ _ => exact ⟨_, _, rfl, isBlank_of_isQuote hq⟩
  | bare hne hchars =>
    obtain ⟨c, tail, rfl⟩ := List.exists_cons_of_ne_nil hne
    exact ⟨c, tail, rfl, isBlank_of_isBare (hchars c (by simp)).1⟩

lemma isBlank_head (h : IsFragment cs) (rest : List Char) :
    ∀ c ∈ (cs ++ rest).head?, isBlank c = false := by
  obtain ⟨c, tail, rfl, hc⟩ := h.exists_head
  simpa using hc

lemma run_append (h : IsFragment cs) (hrest : ∀ c ∈ rest.head?, isBare c = false) :
    fragment.run (cs ++ rest) = some (cs, rest) := by
  cases h with
  | @quoted q inner hq hne hinner =>
    have hsplit := splitAtChar?_append hinner rest
    have hquoted : Text.quoted.run (q :: (inner ++ q :: rest)) =
        some (q :: inner ++ [q], rest) := by
      simp [Text.quoted, quotedWith, hq, hsplit, hne]
    rw [List.cons_append, List.append_assoc, List.singleton_append]
    exact Option.or_eq_some_iff.2 (.inl hquoted)
  | bare hne hchars =>
    have hquoted : Text.quoted.run (cs ++ rest) = none := by
      obtain ⟨c, tail, rfl⟩ := List.exists_cons_of_ne_nil hne
      have hfirst : isQuote c = false := (hchars c (by simp)).2
      simp [Text.quoted, quotedWith, hfirst]
    have hrun : Text.bare.run (cs ++ rest) = some (cs, rest) :=
      Text.run_append hne (fun c hc => (hchars c hc).1) hrest
    exact Option.or_eq_some_iff.2 (.inr ⟨hquoted, hrun⟩)

lemma find?_append (h : IsFragment cs) (hpad : ∀ c ∈ pad, isBlank c = true)
    (hrest : ∀ c ∈ rest.head?, isBare c = false) :
    fragment.find? (pad ++ (cs ++ rest)) = some (cs, rest) := by
  have hrun := h.run_append hrest
  induction pad with
  | nil =>
    obtain ⟨c, tail, rfl, -⟩ := h.exists_head
    exact Option.or_eq_some_iff.2 (.inl hrun)
  | cons b pad ih =>
    have hb : isBare b = false := isBare_of_isBlank (hpad b (by simp))
    have hnone : fragment.run (b :: (pad ++ (cs ++ rest))) = none :=
      run_fragment_eq_none_iff.2 (by simpa using hb)
    rw [List.cons_append, Pattern.find?, hnone, Option.none_or]
    exact ih fun c hc => hpad c (List.mem_cons_of_mem _ hc)

end IsFragment

/-- A text that stands for itself wherever a value may: a fragment, or a pair of quotes with nothing
between them. -/
inductive IsTerm : List Char → Prop
  | ofFragment {cs : List Char} (h : IsFragment cs) : IsTerm cs
  | emptyQuotes {q : Char} (hq : isQuote q = true) : IsTerm [q, q]

namespace IsTerm

variable {cs rest : List Char}

lemma quoted {q : Char} {inner : List Char} (hq : isQuote q = true) (hinner : q ∉ inner) :
    IsTerm (q :: (inner ++ [q])) := by
  cases inner with
  | nil => exact .emptyQuotes hq
  | cons c inner => exact .ofFragment (.quoted hq (List.cons_ne_nil c inner) hinner)

lemma of_all_ne (q : Char) (inner : List Char) (hq : isQuote q = true)
    (h : inner.all (· != q) = true) : IsTerm (q :: (inner ++ [q])) :=
  .quoted hq fun hmem => by simpa using List.all_eq_true.1 h q hmem

lemma exists_head (h : IsTerm cs) : ∃ c tail, cs = c :: tail ∧ isBlank c = false := by
  cases h with
  | ofFragment h => exact h.exists_head
  | emptyQuotes hq => exact ⟨_, _, rfl, isBlank_of_isQuote hq⟩

lemma isBlank_head (h : IsTerm cs) (rest : List Char) :
    ∀ c ∈ (cs ++ rest).head?, isBlank c = false := by
  obtain ⟨c, tail, rfl, hc⟩ := h.exists_head
  simpa using hc

lemma exists_quotes (h : IsTerm cs) {q : Char} (hq : isQuote q = true) (hmem : q ∈ cs) :
    ∃ z inner, isQuote z = true ∧ cs = z :: (inner ++ [z]) := by
  cases h with
  | ofFragment h =>
    cases h with
    | quoted hz _ _ => exact ⟨_, _, hz, rfl⟩
    | bare _ hchars =>
      have hnone := (hchars q hmem).2
      rw [hq] at hnone
      cases hnone
  | emptyQuotes hz => exact ⟨_, [], hz, rfl⟩

lemma run_fragment (h : IsTerm cs) (hrest : ∀ c ∈ rest.head?, isBare c = false) :
    fragment.run (cs ++ rest) = some (cs, rest) := by
  cases h with
  | ofFragment h => exact h.run_append hrest
  | @emptyQuotes q hq =>
    have hquoted : Text.quoted.run ([q, q] ++ rest) = none := by
      simp [Text.quoted, quotedWith, hq, splitAtChar?]
    have hbare : ∀ c ∈ [q, q], isBare c = true := by simpa using isBare_of_isQuote hq
    have hrun : Text.bare.run ([q, q] ++ rest) = some ([q, q], rest) :=
      Text.run_append (List.cons_ne_nil _ _) hbare hrest
    exact Option.or_eq_some_iff.2 (.inr ⟨hquoted, hrun⟩)

lemma run_outputFragment (h : IsTerm cs) (hrest : ∀ c ∈ rest.head?, isBare c = false) :
    outputFragment.run (cs ++ rest) = some (cs, rest) := by
  have hquotes {q : Char} {inner : List Char} (hq : isQuote q = true) (hinner : q ∉ inner) :
      outputFragment.run (q :: (inner ++ [q]) ++ rest) = some (q :: (inner ++ [q]), rest) := by
    have hsplit := splitAtChar?_append hinner rest
    have hquoted : quotedOrEmpty.run (q :: (inner ++ q :: rest)) =
        some (q :: inner ++ [q], rest) := by
      simp [quotedOrEmpty, quotedWith, hq, hsplit]
    rw [List.cons_append, List.append_assoc, List.singleton_append]
    exact Option.or_eq_some_iff.2 (.inl hquoted)
  cases h with
  | ofFragment h =>
    cases h with
    | quoted hq _ hinner => exact hquotes hq hinner
    | bare hne hchars =>
      have hquoted : quotedOrEmpty.run (cs ++ rest) = none := by
        obtain ⟨c, tail, rfl⟩ := List.exists_cons_of_ne_nil hne
        have hfirst : isQuote c = false := (hchars c (by simp)).2
        simp [quotedOrEmpty, quotedWith, hfirst]
      have hrun : Text.bare.run (cs ++ rest) = some (cs, rest) :=
        Text.run_append hne (fun c hc => (hchars c hc).1) hrest
      exact Option.or_eq_some_iff.2 (.inr ⟨hquoted, hrun⟩)
  | emptyQuotes hq => exact hquotes hq List.not_mem_nil

end IsTerm

/-- A quoted text, or a run of bare characters that starts with no quote and ends in no colon, with
quotes inside or without. -/
inductive IsToken : List Char → Prop
  | quoted {q : Char} {inner : List Char} (hq : isQuote q = true) (hinner : q ∉ inner) :
      IsToken (q :: (inner ++ [q]))
  | bare {front : List Char} {last : Char} (hbare : ∀ c ∈ front ++ [last], isBare c = true)
      (hfirst : ∀ c ∈ (front ++ [last]).head?, isQuote c = false) (hlast : last ≠ ':') :
      IsToken (front ++ [last])

namespace IsToken

variable {cs rest : List Char}

lemma exists_last (h : IsToken cs) :
    ∃ front last, cs = front ++ [last] ∧ isBare last = true ∧ last ≠ ':' := by
  cases h with
  | @quoted q inner hq _ =>
    exact ⟨q :: inner, q, rfl, isBare_of_isQuote hq, ne_colon_of_isQuote hq⟩
  | @bare front last hbare _ hlast => exact ⟨front, last, rfl, hbare last (by simp), hlast⟩

lemma isBlank_head (h : IsToken cs) (rest : List Char) :
    ∀ c ∈ (cs ++ rest).head?, isBlank c = false := by
  cases h with
  | quoted hq hinner => exact (IsTerm.quoted hq hinner).isBlank_head rest
  | @bare front last hbare _ _ =>
    intro c hc
    refine isBlank_of_isBare (hbare c ?_)
    cases front with
    | nil => simpa [eq_comm] using hc
    | cons d front => simp_all

lemma run_fragment (h : IsToken cs) (hrest : ∀ c ∈ rest.head?, isBare c = false) :
    fragment.run (cs ++ rest) = some (cs, rest) := by
  cases h with
  | quoted hq hinner => exact (IsTerm.quoted hq hinner).run_fragment hrest
  | @bare front last hbare hfirst _ =>
    have hquoted : Text.quoted.run (front ++ [last] ++ rest) = none := by
      cases front with
      | nil =>
        have hlast : isQuote last = false := hfirst last rfl
        simp [Text.quoted, quotedWith, hlast]
      | cons c front =>
        have hc : isQuote c = false := hfirst c rfl
        simp [Text.quoted, quotedWith, hc]
    have hrun : Text.bare.run (front ++ [last] ++ rest) = some (front ++ [last], rest) :=
      run_append (by simp) hbare hrest
    exact Option.or_eq_some_iff.2 (.inr ⟨hquoted, hrun⟩)

end IsToken

end Liquid.Text
