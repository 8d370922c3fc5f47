import Reckoner.Proofs.Substitution.Printing
import Reckoner.Proofs.Token.Signs

/-!
# Tokens written down

The tokens of a text can be written with a space between neighbours and read again. Each token is
scanned back on its own, except that a number with a sign gives a subtraction and a number. What
has to survive is the telling of signs: it looks at the token before a minus sign and at the one
behind it, and both are scanned back as what they were before signs were told.
-/

namespace Reckoner

lemma Binary64.sign_neg_of_positive {x : Float} (hfinite : (-x).isFinite = true)
    (h : sign x = .positive) : sign (-x) = .negative := by
  rw [isFinite_neg] at hfinite
  change (view x).isFinite = true at hfinite
  rw [sign, view_neg]
  rw [sign] at h
  cases hx : view x with
  | notANumber => rw [hx] at hfinite; cases hfinite
  | infinity s => rw [hx] at hfinite; cases hfinite
  | zero s => rw [hx] at h; subst h; rfl
  | finite s m e hm => rw [hx] at h; subst h; rfl

namespace Token

/-! ### Writing -/

/-- The text of a token. Operators in words are written as marks. -/
def write : Token → List Char
  | .number x => Decimal.write x
  | .text s => '"' :: (s.toList ++ ['"'])
  | .identifier name => name.toList
  | .binary op => op.symbol.toList
  | .bang => ['!']
  | .negate => ['-']
  | .assign => ['=']
  | .question => ['?']
  | .colon => [':']
  | .openParen => ['(']
  | .closeParen => [')']
  | .openBracket => ['[']
  | .closeBracket => [']']
  | .comma => [',']

/-- The text of tokens, with a space between neighbours. -/
def writeAll (ts : List Token) : List Char :=
  Text.join [' '] (ts.map write)

/-- What a written token is read as before signs are told from subtractions. -/
def unsigned : Token → List Token
  | .number x =>
    match Binary64.sign x with
    | .positive => [.number x]
    | .negative => [.binary .sub, .number (-x)]
  | .negate => [.binary .sub]
  | t => [t]

/-- Whether a token has a spelling; a number has one if it is finite. -/
def IsWritable : Token → Prop
  | .number x => x.isFinite = true
  | .text s => '"' ∉ s.toList
  | .identifier name => Spells name.toList (.identifier name)
  | _ => True

lemma spells_binary (op : BinaryOperator) : Spells op.symbol.toList (.binary op) := by
  cases op <;> first | exact .pair rfl | exact .mark rfl

/-- A text that spells a token is taken from the front of a text that goes on with a space. -/
lemma scan_spells_append {w rest : List Char} {t : Token} (h : Spells w t)
    (hrest : ∀ c ∈ rest.head?, isSeparator c = true) :
    scan (w ++ rest) = (scan rest).map (t :: ·) :=
  (Takes.of_spells h fun c hc => goesOn_of_separator (hrest c hc) w).scan_eq

lemma spells_write {x : Float} (hfinite : x.isFinite = true)
    (hsign : Binary64.sign x = .positive) : Spells (Decimal.write x) (.number x) := by
  obtain ⟨n, hn, hx⟩ := Decimal.takeNumeral_write hfinite hsign
  have hspells : Spells (Decimal.write x) (.number n.value) := .number hn
  rwa [hx] at hspells

/-- A written token is taken from the front of a text that goes on with a space. -/
lemma scan_write_append {t : Token} (h : t.IsWritable) {rest : List Char}
    (hrest : ∀ c ∈ rest.head?, isSeparator c = true) :
    scan (t.write ++ rest) = (scan rest).map (t.unsigned ++ ·) := by
  cases t with
  | number x =>
    cases hsign : Binary64.sign x with
    | positive =>
      simp only [unsigned, hsign]
      exact scan_spells_append (spells_write h hsign) hrest
    | negative =>
      have hspells := spells_write ((Binary64.isFinite_neg x).trans h) (Binary64.sign_neg hsign)
      have hminus : scan ('-' :: (Decimal.write (-x) ++ rest))
          = (scan (Decimal.write (-x) ++ rest)).map (.binary .sub :: ·) :=
        (Takes.mark rfl fun d _ => rfl).scan_eq
      simp only [unsigned, hsign]
      rw [write, Decimal.write_of_negative hsign, List.cons_append, hminus,
        scan_spells_append hspells hrest]
      cases scan rest <;> rfl
  | text s =>
    have hspells := Spells.text h
    rw [String.ofList_toList] at hspells
    exact scan_spells_append hspells hrest
  | identifier name => exact scan_spells_append h hrest
  | binary op => exact scan_spells_append (spells_binary op) hrest
  | _ => exact scan_spells_append (.mark rfl) hrest

/-- Written tokens with a space before each are read one by one. -/
lemma scan_spaced {ts : List Token} (h : ∀ t ∈ ts, t.IsWritable) :
    scan ((ts.map write).flatMap ([' '] ++ ·)) = .ok (ts.flatMap unsigned) := by
  induction ts with
  | nil => exact scan_of_separators (by simp)
  | cons t ts ih =>
    have hspace : ∀ c ∈ [' '], isSeparator c = true := by simp [isSeparator]
    have hrest : ∀ c ∈ ((ts.map write).flatMap ([' '] ++ ·)).head?, isSeparator c = true := by
      cases ts with
      | nil => simp
      | cons u ts =>
        rintro c ⟨⟩
        rfl
    rw [List.map_cons, List.flatMap_cons, List.append_assoc, scan_gap hspace,
      scan_write_append (h t List.mem_cons_self) hrest,
      ih fun u hu => h u (List.mem_cons_of_mem _ hu)]
    rfl

/-- Written tokens are read one by one. -/
lemma scan_writeAll {ts : List Token} (h : ∀ t ∈ ts, t.IsWritable) :
    scan (writeAll ts) = .ok (ts.flatMap unsigned) := by
  cases ts with
  | nil => exact scan_of_separators (by simp [writeAll, Text.join])
  | cons t ts =>
    have hspaced := scan_spaced h
    have hspace : isSeparator ' ' = true := rfl
    rw [List.map_cons, List.flatMap_cons, List.append_assoc, List.singleton_append, scan,
      if_pos hspace] at hspaced
    rw [writeAll, List.map_cons, Text.join_cons, hspaced]

/-! ### Telling signs again -/

lemma Spells.isWritable {w : List Char} {t : Token} (h : Spells w t)
    (hfinite : ∀ x, t = .number x → x.isFinite = true) : t.IsWritable := by
  cases h with
  | number hn => exact hfinite _ rfl
  | text hs =>
    rw [IsWritable, String.toList_ofList]
    exact hs
  | @word c w hc hw =>
    have hspells := Spells.word hc hw
    rcases ofWord_cases (c :: w) with h | h | h | h <;> rw [h] at hspells ⊢
    · trivial
    · trivial
    · trivial
    · rw [IsWritable, String.toList_ofList]
      exact hspells
  | pair hp =>
    unfold ofPair at hp
    split at hp <;> cases hp <;> trivial
  | mark hm =>
    unfold ofChar at hm
    split at hm <;> cases hm <;> trivial

/-- Telling signs gives writable tokens if its numbers are finite. -/
lemma Resolves.isWritable {previous : Option Token} {raw ts : List Token}
    (h : Resolves previous raw ts) (hraw : ∀ t ∈ raw, ∃ w, Spells w t)
    (hfinite : ∀ x, .number x ∈ ts → x.isFinite = true) : ∀ t ∈ ts, t.IsWritable := by
  induction h with
  | nil _ => simp
  | number hsign h ih =>
    refine List.forall_mem_cons.2 ⟨hfinite _ List.mem_cons_self, ih ?_ ?_⟩
    · exact fun t ht => hraw t (by simp [ht])
    · exact fun x hx => hfinite x (List.mem_cons_of_mem _ hx)
  | other hsub hassign h ih =>
    obtain ⟨w, hspells⟩ := hraw _ List.mem_cons_self
    refine List.forall_mem_cons.2 ⟨hspells.isWritable ?_, ih ?_ ?_⟩
    · rintro x rfl
      exact hfinite x List.mem_cons_self
    · exact fun t ht => hraw t (List.mem_cons_of_mem _ ht)
    · exact fun x hx => hfinite x (List.mem_cons_of_mem _ hx)
  | _ =>
    rename_i ih
    refine List.forall_mem_cons.2 ⟨trivial, ih ?_ ?_⟩
    · exact fun t ht => hraw t (by simp [ht])
    · exact fun x hx => hfinite x (List.mem_cons_of_mem _ hx)

lemma unsigned_number {x : Float} (h : Binary64.sign x = .positive) :
    unsigned (.number x) = [.number x] := by
  simp [unsigned, h]

lemma unsigned_neg {x : Float} (hfinite : (-x).isFinite = true)
    (h : Binary64.sign x = .positive) : unsigned (.number (-x)) = [.binary .sub, .number x] := by
  have hsign : Binary64.sign (-x) = .negative := Binary64.sign_neg_of_positive hfinite h
  simp [unsigned, hsign, Binary64.neg_neg]

lemma IsUnsigned.unsigned_eq {t : Token} (h : t.IsUnsigned) : t.unsigned = [t] := by
  cases t with
  | number x => exact unsigned_number h
  | negate => exact h.elim
  | _ => rfl

/-- The first token is read as what it was. -/
lemma Resolves.head?_unsigned {previous : Option Token} {raw ts : List Token}
    (h : Resolves previous raw ts) (hraw : ∀ t ∈ raw, t.IsUnsigned)
    (hfinite : ∀ x, .number x ∈ ts → x.isFinite = true) :
    ∀ t ∈ (ts.flatMap unsigned).head?, t ∈ raw.head? ∨ t = .binary .notEqual := by
  cases h with
  | nil _ => simp
  | number hsign h =>
    rw [List.flatMap_cons,
      unsigned_neg (hfinite _ List.mem_cons_self) (hraw (.number _) (by simp))]
    simp
  | other hsub hassign h =>
    rw [List.flatMap_cons, (hraw _ List.mem_cons_self).unsigned_eq]
    simp
  | _ => simp [unsigned]

/-- Telling signs a second time gives the same tokens. -/
lemma Resolves.again {previous : Option Token} {raw ts : List Token}
    (h : Resolves previous raw ts) (hraw : ∀ t ∈ raw, t.IsUnsigned)
    (hfinite : ∀ x, .number x ∈ ts → x.isFinite = true) :
    Resolves previous (ts.flatMap unsigned) ts := by
  induction h with
  | nil previous => exact .nil previous
  | number hsign h ih =>
    rw [List.flatMap_cons,
      unsigned_neg (hfinite _ List.mem_cons_self) (hraw (.number _) (by simp))]
    refine .number hsign (ih ?_ ?_)
    · exact fun t ht => hraw t (by simp [ht])
    · exact fun x hx => hfinite x (List.mem_cons_of_mem _ hx)
  | negate hsign hnumber h ih =>
    have hraw' := fun t ht => hraw t (List.mem_cons_of_mem _ ht)
    have hfinite' := fun x hx => hfinite x (List.mem_cons_of_mem _ hx)
    refine .negate hsign (fun t ht => ?_) (ih hraw' hfinite')
    rcases h.head?_unsigned hraw' hfinite' t ht with ht | rfl
    · exact hnumber t ht
    · rfl
  | sub hsign h ih =>
    exact .sub hsign (ih (fun t ht => hraw t (List.mem_cons_of_mem _ ht))
      fun x hx => hfinite x (List.mem_cons_of_mem _ hx))
  | notEqual h ih =>
    refine .other (by simp) (by simp) (ih ?_ ?_)
    · exact fun t ht => hraw t (by simp [ht])
    · exact fun x hx => hfinite x (List.mem_cons_of_mem _ hx)
  | other hsub hassign h ih =>
    have hraw' := fun t ht => hraw t (List.mem_cons_of_mem _ ht)
    have hfinite' := fun x hx => hfinite x (List.mem_cons_of_mem _ hx)
    rw [List.flatMap_cons, (hraw _ List.mem_cons_self).unsigned_eq]
    refine .other hsub (fun hbang t ht => ?_) (ih hraw' hfinite')
    rcases h.head?_unsigned hraw' hfinite' t ht with ht | rfl
    · exact hassign hbang t ht
    · simp

/-- Tokens of a text that are written with spaces between them are read again, if the numbers among
them are finite. Numbers that belong to a sign are written with it. -/
theorem tokenize_writeAll {source : List Char} {ts : List Token} (h : tokenize source = .ok ts)
    (hfinite : ∀ x, .number x ∈ ts → x.isFinite = true) : tokenize (writeAll ts) = .ok ts := by
  obtain ⟨raw, hscan, rfl⟩ := exists_scan_of_tokenize h
  have hresolves := resolves_resolve none raw
  have hspells : ∀ t ∈ raw, ∃ w, Spells w t := by
    obtain ⟨ps, -, -, -, rfl, -⟩ := exists_pieces_of_scan hscan
    intro t ht
    obtain ⟨p, -, rfl⟩ := List.mem_map.1 ht
    exact ⟨p.spelling, p.spells⟩
  have hagain := hresolves.again (isUnsigned_of_mem_scan hscan) hfinite
  rw [tokenize, scan_writeAll (hresolves.isWritable hspells hfinite)]
  exact congrArg Except.ok hagain.resolve_eq

/-- The tokens of `!-2--x` are written as `! -2 - - x`. -/
theorem tokenize_writeAll_minus :
    tokenize "!-2--x".toList = .ok [.bang, .number (-2), .binary .sub, .negate, .identifier "x"]
      ∧ writeAll [.bang, .number (-2), .binary .sub, .negate, .identifier "x"]
          = "! -2 - - x".toList
      ∧ tokenize (writeAll [.bang, .number (-2), .binary .sub, .negate, .identifier "x"])
          = .ok [.bang, .number (-2), .binary .sub, .negate, .identifier "x"] := by
  have htokens : tokenize "!-2--x".toList
      = .ok [.bang, .number (-2), .binary .sub, .negate, .identifier "x"] := by decide +kernel
  refine ⟨htokens, by decide +kernel, tokenize_writeAll htokens ?_⟩
  intro x hx
  obtain rfl : x = -2 := by simpa using hx
  decide +kernel

end Token

end Reckoner
