/-!
# Tokens of a file pattern

A token stands for one character of a name or for a row of them. `Fits` says which names a list of
tokens stands for; `fits` decides it without ever going back behind a row: the shortest row that
lets the tokens behind it begin is enough, which is what `fits_iff` rests on.
-/

namespace Liquid.Files

/-- A single character of a set in brackets, or all characters between two. -/
abbrev CharSpan := Char × Char

/-- What a piece of a pattern stands for. -/
inductive GlobToken
  | char (c : Char)
  | anyChar
  | anySequence
  | anyDirectories
  | oneOf (spans : List CharSpan)
  | noneOf (spans : List CharSpan)
deriving DecidableEq, Repr

def inSpans (spans : List CharSpan) (c : Char) : Bool :=
  spans.any fun span => span.1 ≤ c && c ≤ span.2

namespace GlobToken

def admits : GlobToken → Char → Bool
  | char d, c => c == d
  | anyChar, _ => true
  | oneOf spans, c => inSpans spans c
  | noneOf spans, c => !inSpans spans c
  | anySequence, _ | anyDirectories, _ => false

/-- The token can stand for any row of characters. -/
def isRow : GlobToken → Bool
  | anySequence | anyDirectories => true
  | _ => false

theorem admits_of_isRow {token : GlobToken} (h : token.isRow = true) (c : Char) :
    token.admits c = false := by
  cases token <;> simp_all [isRow, admits]

end GlobToken

namespace Glob

/-- A whole name fits a component of a pattern. -/
inductive Fits : List GlobToken → List Char → Prop
  | nil : Fits [] []
  | one {token : GlobToken} {tokens : List GlobToken} {c : Char} {cs : List Char} :
    token.admits c = true → Fits tokens cs → Fits (token :: tokens) (c :: cs)
  | row {token : GlobToken} {tokens : List GlobToken} (skipped : List Char) {cs : List Char} :
    token.isRow = true → Fits tokens cs → Fits (token :: tokens) (skipped ++ cs)

/-- What comes of laying tokens along a name. -/
inductive Fit
  | whole
  | mismatch
  /-- The name is too short, and so is every end of it. -/
  | tooShort
deriving DecidableEq, Repr

/-- Tries a name, then the ends of it, from the longest on, until one is no mismatch. -/
def firstFit (fit : List Char → Fit) : List Char → Fit
  | [] => fit []
  | c :: cs =>
    match fit (c :: cs) with
    | .mismatch => firstFit fit cs
    | found => found

/-- Lays tokens along a name. A row of characters is made as short as it can be: when the tokens
behind it find the name too short, a longer row leaves them even less. -/
def fit : List GlobToken → List Char → Fit
  | [], cs => if cs.isEmpty then .whole else .mismatch
  | token :: tokens, cs =>
    if token.isRow then firstFit (fit tokens) cs
    else
      match cs with
      | [] => .tooShort
      | c :: cs => if token.admits c then fit tokens cs else .mismatch

/-- Decides whether a whole name fits a component of a pattern. -/
def fits (tokens : List GlobToken) (cs : List Char) : Bool := fit tokens cs == .whole

theorem fits_nil_iff {cs : List Char} : Fits [] cs ↔ cs = [] :=
  ⟨fun h => by cases h; rfl, fun h => h ▸ .nil⟩

theorem fits_one_iff {token : GlobToken} (hrow : token.isRow = false) {tokens : List GlobToken}
    {cs : List Char} :
    Fits (token :: tokens) cs ↔ ∃ c rest, cs = c :: rest ∧ token.admits c = true ∧
      Fits tokens rest := by
  constructor
  · intro h
    cases h with
    | one hc h => exact ⟨_, _, rfl, hc, h⟩
    | row _ hr _ => rw [hrow] at hr; cases hr
  · rintro ⟨c, rest, rfl, hc, h⟩
    exact .one hc h

theorem fits_row_iff {token : GlobToken} (hrow : token.isRow = true) {tokens : List GlobToken}
    {cs : List Char} : Fits (token :: tokens) cs ↔ ∃ rest, rest <:+ cs ∧ Fits tokens rest := by
  constructor
  · intro h
    cases h with
    | one hc _ => rw [GlobToken.admits_of_isRow hrow] at hc; cases hc
    | row skipped _ h => exact ⟨_, List.suffix_append _ _, h⟩
  · rintro ⟨rest, ⟨skipped, rfl⟩, h⟩
    exact .row skipped hrow h

/-- What an outcome of `fit` says about a name and its ends. -/
def Fit.Sound (tokens : List GlobToken) (cs : List Char) : Fit → Prop
  | .whole => Fits tokens cs
  | .mismatch => ¬ Fits tokens cs
  | .tooShort => ∀ rest, rest <:+ cs → ¬ Fits tokens rest

/-- Of all rows that a token can stand for, the shortest that is no mismatch decides. -/
theorem firstFit_sound {token : GlobToken} (hrow : token.isRow = true) {tokens : List GlobToken}
    {f : List Char → Fit} (hf : ∀ cs, (f cs).Sound tokens cs) (cs : List Char) :
    (firstFit f cs).Sound (token :: tokens) cs := by
  induction cs with
  | nil =>
    have h := hf []
    rw [firstFit]
    cases hfit : f [] <;> rw [hfit] at h
    · exact (fits_row_iff hrow).2 ⟨[], List.suffix_rfl, h⟩
    · intro hc
      obtain ⟨rest, hr, hfits⟩ := (fits_row_iff hrow).1 hc
      exact h (List.suffix_nil.1 hr ▸ hfits)
    · intro rest hr hc
      obtain ⟨rest', hr', hfits⟩ := (fits_row_iff hrow).1 hc
      exact h rest' (hr'.trans hr) hfits
  | cons c cs ih =>
    have h := hf (c :: cs)
    rw [firstFit]
    cases hfit : f (c :: cs) <;> rw [hfit] at h <;> simp only
    · exact (fits_row_iff hrow).2 ⟨_, List.suffix_rfl, h⟩
    · cases hrest : firstFit f cs <;> rw [hrest] at ih
      · obtain ⟨rest, hr, hfits⟩ := (fits_row_iff hrow).1 ih
        exact (fits_row_iff hrow).2 ⟨rest, hr.trans (List.suffix_cons c cs), hfits⟩
      · intro hc
        obtain ⟨rest, hr, hfits⟩ := (fits_row_iff hrow).1 hc
        rcases List.suffix_cons_iff.1 hr with rfl | hr
        · exact h hfits
        · exact ih ((fits_row_iff hrow).2 ⟨rest, hr, hfits⟩)
      · intro rest hr hc
        obtain ⟨rest', hr', hfits⟩ := (fits_row_iff hrow).1 hc
        rcases List.suffix_cons_iff.1 (hr'.trans hr) with rfl | hr
        · exact h hfits
        · exact ih rest' hr ((fits_row_iff hrow).2 ⟨rest', List.suffix_rfl, hfits⟩)
    · intro rest hr hc
      obtain ⟨rest', hr', hfits⟩ := (fits_row_iff hrow).1 hc
      exact h rest' (hr'.trans hr) hfits

theorem fit_sound (tokens : List GlobToken) (cs : List Char) :
    (fit tokens cs).Sound tokens cs := by
  induction tokens generalizing cs with
  | nil =>
    cases cs with
    | nil => exact Fits.nil
    | cons c cs => exact fun h => nomatch fits_nil_iff.1 h
  | cons token tokens ih =>
    unfold fit
    split
    · rename_i hrow
      exact firstFit_sound hrow ih cs
    · rename_i hrow
      have hrow : token.isRow = false := by simpa using hrow
      cases cs with
      | nil =>
        intro rest hr hc
        obtain ⟨c, _, rfl, _⟩ := (fits_one_iff hrow).1 hc
        cases List.suffix_nil.1 hr
      | cons c cs =>
        simp only
        split
        · rename_i hc
          have h := ih cs
          cases hfit : fit tokens cs <;> rw [hfit] at h
          · exact .one hc h
          · intro hfits
            obtain ⟨_, _, heq, _, hrest⟩ := (fits_one_iff hrow).1 hfits
            cases heq
            exact h hrest
          · intro rest hr hfits
            obtain ⟨_, rest', rfl, _, hrest⟩ := (fits_one_iff hrow).1 hfits
            refine h rest' ?_ hrest
            rcases List.suffix_cons_iff.1 hr with heq | hr
            · cases heq; exact List.suffix_rfl
            · exact (List.suffix_cons _ _).trans hr
        · rename_i hc
          intro hfits
          obtain ⟨_, _, heq, hadmits, _⟩ := (fits_one_iff hrow).1 hfits
          cases heq
          exact hc hadmits

/-- Nothing is lost by never going back behind a row. -/
theorem fits_iff {tokens : List GlobToken} {cs : List Char} :
    fits tokens cs = true ↔ Fits tokens cs := by
  have h := fit_sound tokens cs
  unfold fits
  cases hfit : fit tokens cs <;> rw [hfit] at h
  · simpa [Fit.Sound] using h
  · simpa [Fit.Sound] using h
  · simpa using h cs List.suffix_rfl

instance (tokens : List GlobToken) (cs : List Char) : Decidable (Fits tokens cs) :=
  decidable_of_iff _ fits_iff

end Glob

end Liquid.Files
