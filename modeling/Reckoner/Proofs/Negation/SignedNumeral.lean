import Reckoner.Proofs.Statement.Applied
import Reckoner.Proofs.Substitution.Substitutes
import Reckoner.Proofs.Syntax.Swapping
import Reckoner.Proofs.Token.Signs

/-!
# Numerals behind a sign

A minus sign right before a numeral is part of the number; one before a parenthesis negates a value.
The two ways of writing a negative number give expressions that differ in one part only.
-/

namespace Reckoner

namespace Token

/-! ### Telling signs in tokens in a row -/

variable {previous : Option Token} {raw raw' ts ts' : List Token}

/-- Signs are told in tokens in a row one part after the other, if the second does not start with a
token that has to do with what is before it. -/
lemma Resolves.append (h : Resolves previous raw ts)
    (h' : Resolves (ts.getLast?.or previous) raw' ts')
    (hraw : ∀ t ∈ raw'.head?, t.isNumber = false ∧ t ≠ .assign) :
    Resolves previous (raw ++ raw') (ts ++ ts') := by
  have hhead {p : Token → Prop} {raw : List Token} (hp : ∀ t ∈ raw.head?, p t)
      (hp' : ∀ t ∈ raw'.head?, p t) : ∀ t ∈ (raw ++ raw').head?, p t := by
    cases raw with
    | nil => exact hp'
    | cons t raw => exact hp
  induction h with
  | nil previous => exact h'
  | number hsign _ ih =>
    rw [getLast?_cons_or] at h'
    exact .number hsign (ih h')
  | negate hsign hnumber _ ih =>
    rw [getLast?_cons_or] at h'
    exact .negate hsign (hhead hnumber fun t ht => (hraw t ht).1) (ih h')
  | sub hsign _ ih =>
    rw [getLast?_cons_or] at h'
    exact .sub hsign (ih h')
  | notEqual _ ih =>
    rw [getLast?_cons_or] at h'
    exact .notEqual (ih h')
  | other hsub hassign _ ih =>
    rw [getLast?_cons_or] at h'
    exact .other hsub (fun hbang => hhead (hassign hbang) fun t ht => (hraw t ht).2) (ih h')

/-- Only whether an operand comes before has a say in which signs there are. -/
lemma Resolves.congr {previous' : Option Token} (h : Resolves previous raw ts)
    (hsame : isSign previous = isSign previous') : Resolves previous' raw ts := by
  cases h with
  | nil _ => exact .nil _
  | number hsign h => exact .number (hsame ▸ hsign) h
  | negate hsign hraw h => exact .negate (hsame ▸ hsign) hraw h
  | sub hsign h => exact .sub (hsame ▸ hsign) h
  | notEqual h => exact .notEqual h
  | other hsub hraw h => exact .other hsub hraw h

lemma isSign_or_congr (t t' : Token) (h : isSign (some t) = isSign (some t')) (ts : List Token) :
    isSign (ts.getLast?.or (some t)) = isSign (ts.getLast?.or (some t')) := by
  cases ts.getLast? with
  | none => exact h
  | some u => rfl

/-- Telling signs keeps whether there is an operand at the end. -/
lemma Resolves.isSign_getLast? (h : Resolves previous raw ts) :
    isSign (ts.getLast?.or previous) = isSign (raw.getLast?.or previous) := by
  induction h with
  | nil _ => rfl
  | @number _ x raw _ _ _ ih =>
    rw [getLast?_cons_or, getLast?_cons_or, getLast?_cons_or, ih]
    exact isSign_or_congr (.number (-x)) (.number x) rfl raw
  | @negate _ raw _ _ _ _ ih =>
    rw [getLast?_cons_or, getLast?_cons_or, ih]
    exact isSign_or_congr .negate (.binary .sub) rfl raw
  | sub _ _ ih => rw [getLast?_cons_or, getLast?_cons_or, ih]
  | @notEqual _ raw _ _ ih =>
    rw [getLast?_cons_or, getLast?_cons_or, getLast?_cons_or, ih]
    exact isSign_or_congr (.binary .notEqual) .assign rfl raw
  | other _ _ _ ih => rw [getLast?_cons_or, getLast?_cons_or, ih]

/-- The tokens of a number behind a sign, and of the same number negated. -/
lemma resolve_append_minus (previous : Option Token) (raw us : List Token) (x : Float)
    (hsign : isSign (raw.getLast?.or previous) = true) :
    ∃ ts us', isSign (ts.getLast?.or previous) = true
      ∧ resolve previous (raw ++ binary .sub :: number x :: us) = ts ++ number (-x) :: us'
      ∧ resolve previous (raw ++ binary .sub :: openParen :: number x :: closeParen :: us)
          = ts ++ negate :: openParen :: number x :: closeParen :: us' := by
  have hraw := resolves_resolve previous raw
  have hlast := hraw.isSign_getLast?.trans hsign
  have hminus (us : List Token) :
      ∀ t ∈ (.binary .sub :: us : List Token).head?, t.isNumber = false ∧ t ≠ .assign := by
    rintro _ ⟨⟩
    exact ⟨rfl, by simp⟩
  have hus := resolves_resolve (some (.number (-x))) us
  refine ⟨resolve previous raw, resolve (some (.number (-x))) us, hlast,
    (hraw.append (.number hlast hus) (hminus _)).resolve_eq, ?_⟩
  have hnegated : Resolves ((resolve previous raw).getLast?.or previous)
      (.binary .sub :: .openParen :: .number x :: .closeParen :: us)
      (.negate :: .openParen :: .number x :: .closeParen :: resolve (some (.number (-x))) us) := by
    refine .negate hlast (by rintro _ ⟨⟩; rfl) ?_
    refine .other (by simp) (by simp) (.other (by simp) (by simp) (.other (by simp) (by simp) ?_))
    exact hus.congr rfl
  exact (hraw.append hnegated (hminus _)).resolve_eq

/-! ### Reading a minus sign -/

lemma toLower_of_isDigit {c : Char} (h : c.isDigit = true) : c.toLower = c := by
  simp only [Char.isDigit, Bool.and_eq_true, decide_eq_true_eq] at h
  unfold Char.toLower
  rw [dif_neg]
  intro hupper
  exact absurd (UInt32.le_trans hupper.1 h.2) (by decide)

/-- No numeral goes on behind a token that ends no operand. -/
lemma Spells.not_continuesNumeral {w : List Char} {t : Token} (h : Spells w t)
    (ht : t.endsOperand = false) : ∀ c ∈ w.getLast?, Decimal.continuesNumeral c = false := by
  intro d hd
  cases h with
  | number hn => cases ht
  | text hs => cases ht
  | @word c w hc hw =>
    -- Only the three operators that are words end no operand.
    have hlower : ∀ s : String, String.ofList ((c :: w).map Char.toLower) = s →
        s.toList.getLast? = some d.toLower := by
      rintro s rfl
      rw [String.toList_ofList, List.getLast?_map, Option.mem_def.1 hd, Option.map_some]
    have hlast : d.toLower ∈ ['d', 'r', 't'] := by
      simp only [ofWord] at ht
      split_ifs at ht with hand hor hnot
      · exact Option.some.inj (hlower _ hand) ▸ (by decide)
      · exact Option.some.inj (hlower _ hor) ▸ (by decide)
      · exact Option.some.inj (hlower _ hnot) ▸ (by decide)
      · cases ht
    have hdigit : d.isDigit = false := by
      refine Bool.eq_false_iff.2 fun hdigit => ?_
      rw [toLower_of_isDigit hdigit] at hlast
      have hall : ∀ c ∈ ['d', 'r', 't'], c.isDigit = false := List.all_iff_forall_prop.1 (by decide)
      rw [hall d hlast] at hdigit
      cases hdigit
    have hne : ∀ c ∈ ['.', 'e', 'E'], d ≠ c := by
      have hall : ∀ c ∈ ['.', 'e', 'E'], c.toLower ∉ ['d', 'r', 't'] :=
        List.all_iff_forall_prop.1 (by decide)
      rintro c hc rfl
      exact hall d hc hlast
    simp [Decimal.continuesNumeral, hdigit, hne '.' (by decide), hne 'e' (by decide),
      hne 'E' (by decide)]
  | pair hp =>
    unfold ofPair at hp
    split at hp <;> cases hp <;> cases hd <;> rfl
  | mark hm =>
    unfold ofChar at hm
    split at hm <;> cases hm <;> cases hd <;> rfl

lemma parted_minus {s b : List Char} {ts : List Token} (h : scan s = .ok ts)
    (hsign : isSign ts.getLast? = true) : Parted s ('-' :: b) := by
  refine .minus ?_ rfl
  obtain ⟨ps, gap, rfl, hgap, rfl, -⟩ := exists_pieces_of_scan h
  refine forall_mem_getLast?_append ?_ fun c hc => ?_
  · cases hlast : ps.getLast? with
    | none =>
      rw [List.getLast?_eq_none_iff.1 hlast]
      rintro c ⟨⟩
    | some p =>
      rw [Piece.getLast?_texts hlast]
      refine p.spells.not_continuesNumeral ?_
      rw [List.getLast?_map, hlast] at hsign
      simpa [isSign] using hsign
  · refine Decimal.not_continues_of_not_isNumeralChar (Bool.eq_false_iff.2 fun hnumeral => ?_)
    have hplain := not_isSeparator_of_numeral hnumeral
    rw [hgap c (List.mem_of_mem_getLast? hc)] at hplain
    cases hplain

end Token

/-! ### Numerals behind a sign in a text -/

/-- A numeral in a text that stands right behind a minus sign which no operand comes before. -/
structure SignedNumeral where
  before : List Char
  numeral : List Char
  behind : List Char
  /-- The tokens before the sign. -/
  tokens : List Token
  number : Decimal.Numeral
  scan_before : Token.scan before = .ok tokens
  isSign_getLast? : Token.isSign tokens.getLast? = true
  takeNumeral_numeral : Decimal.takeNumeral numeral = some (number, [])
  takeNumeral_append : Decimal.takeNumeral (numeral ++ behind) = some (number, behind)

namespace SignedNumeral

open Token

variable (x : SignedNumeral)

/-- The text with the sign right before the numeral: `-n`. -/
def signed : List Char :=
  x.before ++ '-' :: (x.numeral ++ x.behind)

/-- The text with the numeral in parentheses: `-(n)`. -/
def grouped : List Char :=
  x.before ++ '-' :: '(' :: (x.numeral ++ ')' :: x.behind)

/-- What the numeral and its sign are read as. -/
def constant : Expr :=
  .number (-x.number.value)

/-- What the numeral in parentheses and its sign are read as. -/
def negation : Expr :=
  .unary .negate (.group (.number x.number.value))

lemma scan_minus_append (b : List Char) :
    scan (x.before ++ '-' :: b) = (scan b).map fun ts => x.tokens ++ .binary .sub :: ts := by
  have hminus : scan ('-' :: b) = (scan b).map (.binary .sub :: ·) :=
    (Takes.mark rfl fun d _ => rfl).scan_eq
  rw [(parted_minus x.scan_before x.isSign_getLast?).scan_append
    (isText_after_of_scan x.scan_before), x.scan_before, hminus]
  cases scan b <;> rfl

lemma scan_signed :
    scan x.signed = (scan x.behind).map fun us =>
      x.tokens ++ .binary .sub :: .number x.number.value :: us := by
  rw [signed, scan_minus_append, (Takes.of_takeNumeral x.takeNumeral_append).scan_eq]
  cases scan x.behind <;> rfl

lemma scan_grouped :
    scan x.grouped = (scan x.behind).map fun us =>
      x.tokens ++ .binary .sub :: .openParen :: .number x.number.value :: .closeParen :: us := by
  have hopen (b : List Char) : scan ('(' :: b) = (scan b).map (.openParen :: ·) :=
    (Takes.mark rfl fun d _ => rfl).scan_eq
  have hclose (b : List Char) : scan (')' :: b) = (scan b).map (.closeParen :: ·) :=
    (Takes.mark rfl fun d _ => rfl).scan_eq
  have hnumeral : Decimal.takeNumeral (x.numeral ++ ')' :: x.behind)
      = some (x.number, ')' :: x.behind) := by
    refine Decimal.takeNumeral_append x.takeNumeral_numeral ?_
    rintro _ ⟨⟩
    rfl
  rw [grouped, scan_minus_append, hopen, (Takes.of_takeNumeral hnumeral).scan_eq, hclose]
  cases scan x.behind <;> rfl

/-- Both texts are read, as the same surroundings of the one number and the other, or neither is. -/
lemma parses_cases {e : Engine} {source source' : List Char} (hsigned : Text.trim source = x.signed)
    (hgrouped : Text.trim source' = x.grouped) :
    ((∀ tree, ¬ e.Parses source tree) ∧ ∀ tree, ¬ e.Parses source' tree)
      ∨ ∃ s : Surrounding, e.Parses source (s.fill x.constant)
        ∧ e.Parses source' (s.fill x.negation) := by
  cases hscan : scan x.behind with
  | error err =>
    have hsource : tokenize x.signed = .error err := by rw [tokenize, x.scan_signed, hscan]; rfl
    have hsource' : tokenize x.grouped = .error err := by rw [tokenize, x.scan_grouped, hscan]; rfl
    refine .inl ⟨?_, ?_⟩
    · rintro tree ⟨ts, hts, -⟩
      rw [hsigned, hsource] at hts
      cases hts
    · rintro tree ⟨ts, hts, -⟩
      rw [hgrouped, hsource'] at hts
      cases hts
  | ok us =>
    obtain ⟨ts, us', hsign, hsource, hsource'⟩ :=
      resolve_append_minus none x.tokens us x.number.value (by simpa using x.isSign_getLast?)
    have htokens : tokenize x.signed = .ok (ts ++ .number (-x.number.value) :: us') := by
      rw [tokenize, x.scan_signed, hscan, ← hsource]
      rfl
    have htokens' : tokenize x.grouped
        = .ok (ts ++ .negate :: .openParen :: .number x.number.value :: .closeParen :: us') := by
      rw [tokenize, x.scan_grouped, hscan, ← hsource']
      rfl
    have hname : ∀ name, ts.getLast? ≠ some (.identifier name) := by
      intro name hlast
      rw [hlast] at hsign
      cases hsign
    have hparse : Option.Rel _ (Sketch.parse e.functions.isFunction _) _ :=
      Sketch.parse_negated hname x.number.value (-x.number.value) us'
    have hreads {text : List Char} {ts : List Token} (htext : tokenize (Text.trim text) = .ok ts)
        (tree : Expr) :
          e.Parses text tree ↔ Sketch.parse e.functions.isFunction ts = some tree := by
      rw [Sketch.parse_eq_some_iff]
      constructor
      · rintro ⟨ts', htext', htree⟩
        rwa [Except.ok.inj (htext.symm.trans htext')]
      · exact fun htree => ⟨ts, htext, htree⟩
    simp only [hreads (hsigned ▸ htokens), hreads (hgrouped ▸ htokens')]
    generalize Sketch.parse e.functions.isFunction _ = a at hparse ⊢
    generalize Sketch.parse e.functions.isFunction _ = b at hparse ⊢
    cases hparse with
    | none => exact .inl ⟨by simp, by simp⟩
    | some h =>
      obtain ⟨s, rfl, rfl⟩ := h
      exact .inr ⟨s, rfl, rfl⟩

end SignedNumeral

end Reckoner
