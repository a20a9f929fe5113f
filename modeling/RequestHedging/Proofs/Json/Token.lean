import RequestHedging.Json.Token
import RequestHedging.Proofs.Text.Numeral

/-!
# Tokens read back

Which texts are read as one token, whatever follows them (`tokens_cons`).  A number ends only where
something follows that is no part of a number, so what is said of a scalar is said in front of a
comma or a closing brace (`Reads`).
-/

namespace RequestHedging.Json

open Text

variable {text rest : List Char}

/-- A text that goes on with the next member of an object or the end of it, or not at all. -/
def Ends (rest : List Char) : Prop := ∀ c ∈ rest.head?, c = ',' ∨ c = '\x7d'

theorem ends_comma (rest : List Char) : Ends (',' :: rest) := by
  rintro c ⟨⟩
  exact .inl rfl

theorem ends_closeBrace (rest : List Char) : Ends ('\x7d' :: rest) := by
  rintro c ⟨⟩
  exact .inr rfl

theorem Ends.undigit (h : Ends rest) : Undigit rest := by
  intro c hc
  rcases h c hc with rfl | rfl <;> rfl

theorem Ends.head?_ne {c : Char} (h : Ends rest) (hc : c ≠ ',' ∧ c ≠ '\x7d') :
    rest.head? ≠ some c :=
  fun heq => (h c heq).elim hc.1 hc.2

/-! ## Tokens -/

@[simp] theorem tokens_nil : tokens [] = [] := by
  rw [tokens]
  rfl

/-- A token at the front of a text is the first of its tokens. -/
theorem tokens_cons {c : Char} {t : Token} (hspace : isSpace c = false)
    (h : readToken (c :: text) = some (t, rest)) : tokens (c :: text) = t :: tokens rest := by
  have hskip : skipSpaces (c :: text) = c :: text := by
    rw [skipSpaces, List.dropWhile_cons, hspace]
    rfl
  have hsome : ¬ (c :: text).isEmpty = true := Bool.false_ne_true
  rw [tokens, hskip, if_neg hsome]
  split
  · rename_i hnone
    exact absurd (h.symm.trans hnone) (Option.some_ne_none _)
  · rename_i hsome
    obtain ⟨rfl, rfl⟩ := Prod.mk.inj (Option.some.inj (h.symm.trans hsome))
    rfl

theorem tokens_openBrace : tokens ('\x7b' :: rest) = .openBrace :: tokens rest :=
  tokens_cons rfl rfl

theorem tokens_closeBrace : tokens ('\x7d' :: rest) = .closeBrace :: tokens rest :=
  tokens_cons rfl rfl

theorem tokens_colon : tokens (':' :: rest) = .colon :: tokens rest := tokens_cons rfl rfl

theorem tokens_comma : tokens (',' :: rest) = .comma :: tokens rest := tokens_cons rfl rfl

/-- A text that is read as a scalar if a member or an end follows. -/
def Reads (text : List Char) (value : Scalar) : Prop :=
  ∀ rest, Ends rest → tokens (text ++ rest) = .scalar value :: tokens rest

theorem reads_bool (b : Bool) : Reads (if b then "true" else "false").toList (.bool b) := by
  intro rest _
  cases b with
  | false => exact tokens_cons rfl rfl
  | true => exact tokens_cons rfl rfl

theorem reads_null : Reads "null".toList .null := fun _ _ => tokens_cons rfl rfl

/-! ## Texts -/

/-- A character that stands for itself between quotation marks. -/
def IsPlain (c : Char) : Prop := c ≠ '"' ∧ c ≠ '\\' ∧ 0x20 ≤ c.toNat

instance : DecidablePred IsPlain := fun c => inferInstanceAs (Decidable (c ≠ '"' ∧ _ ∧ _))

theorem isPlain_of_all (h : text.all (IsPlain ·) = true) : ∀ c ∈ text, IsPlain c :=
  fun c hc => of_decide_eq_true (List.all_eq_true.mp h c hc)

theorem isPlain_of_isDigit {c : Char} (h : c.isDigit = true) : IsPlain c := by
  refine ⟨?_, ?_, ?_⟩
  · rintro rfl
    exact absurd h (by decide)
  · rintro rfl
    exact absurd h (by decide)
  · have hlow : '0'.toNat ≤ c.toNat := (Bool.and_eq_true_iff.mp h).1 |> of_decide_eq_true
    exact Nat.le_trans (by decide) hlow

/-- A text that needs no escapes is read as it stands. -/
theorem readPieces_plain (h : ∀ c ∈ text, IsPlain c) (rest : List Char) :
    readPieces (text ++ '"' :: rest) = some (text.map .char, rest) := by
  induction text with
  | nil => rfl
  | cons c text ih =>
    obtain ⟨hquote, hslash, hcontrol⟩ := h c List.mem_cons_self
    have hrest := ih fun c' hc' => h c' (List.mem_cons_of_mem _ hc')
    have hplain : ¬ (c.toNat < 0x20 ∨ c = '\\') := not_or.mpr ⟨Nat.not_lt.mpr hcontrol, hslash⟩
    rw [List.cons_append, readPieces, if_neg hplain, hrest]
    · rfl
    · exact hquote
    · exact fun _ _ _ _ _ hc => absurd hc hslash
    · exact fun _ _ hc => absurd hc hslash

theorem joinPieces_char (text : List Char) : joinPieces (text.map .char) = some text := by
  induction text with
  | nil => rfl
  | cons c text ih =>
    rw [List.map_cons, joinPieces, ih]
    rfl

theorem tokens_quoted (h : ∀ c ∈ text, IsPlain c) (rest : List Char) :
    tokens ('"' :: (text ++ '"' :: rest)) = .scalar (.text text) :: tokens rest := by
  apply tokens_cons rfl
  show readText (text ++ '"' :: rest) = _
  simp only [readText, readPieces_plain h, joinPieces_char, Option.bind_eq_bind, Option.bind_some]

/-! ## Numbers -/

namespace Numeral

def powerChars (power : Int) : List Char :=
  'e' :: (if power < 0 then '-' else '+') :: numeral power.natAbs

def chars (n : Numeral) : List Char :=
  (if n.negative then ['-'] else []) ++
    (n.whole ++ (n.fraction.elim [] ('.' :: ·) ++ n.power.elim [] powerChars))

/-- A number that may be written as it is. -/
structure Sound (n : Numeral) : Prop where
  whole_ne_nil : n.whole ≠ []
  isDigit_of_mem_whole : ∀ c ∈ n.whole, c.isDigit = true
  /-- There are no zeros in front of other digits. -/
  head?_ne : 1 < n.whole.length → n.whole.head? ≠ some '0'
  fraction_ne_nil : ∀ digits ∈ n.fraction, digits ≠ []
  isDigit_of_mem_fraction : ∀ digits ∈ n.fraction, ∀ c ∈ digits, c.isDigit = true

end Numeral

theorem readDigits_append {digits : List Char} (hsome : digits ≠ [])
    (h : ∀ c ∈ digits, c.isDigit = true) (hrest : Undigit rest) :
    readDigits (digits ++ rest) = some (digits, rest) := by
  unfold readDigits
  rw [spanDigits_append h hrest]
  exact if_neg (Bool.not_eq_true _ ▸ List.isEmpty_eq_false_iff.mpr hsome)

theorem readFraction_chars {fraction : Option (List Char)} (hsome : ∀ ds ∈ fraction, ds ≠ [])
    (h : ∀ ds ∈ fraction, ∀ c ∈ ds, c.isDigit = true) (hdigit : Undigit rest)
    (hpoint : rest.head? ≠ some '.') :
    readFraction (fraction.elim [] ('.' :: ·) ++ rest) = some (fraction, rest) := by
  cases fraction with
  | none =>
    show readFraction rest = _
    unfold readFraction
    split
    · exact absurd rfl hpoint
    · rfl
  | some digits =>
    show (readDigits (digits ++ rest)).map _ = _
    rw [readDigits_append (hsome digits rfl) (h digits rfl) hdigit]
    rfl

theorem readPower_chars {power : Option Int} (hrest : Ends rest) :
    readPower (power.elim [] Numeral.powerChars ++ rest) = some (power, rest) := by
  cases power with
  | none =>
    show readPower rest = _
    unfold readPower
    split
    · rename_i c rest
      split
      · rename_i he
        rcases he with rfl | rfl <;> rcases hrest _ rfl with hc | hc <;> cases hc
      · rfl
    · rfl
  | some power =>
    have hdigits : readDigits (numeral power.natAbs ++ rest) = some (numeral power.natAbs, rest) :=
      readDigits_append (numeral_ne_nil _) (fun _ => isDigit_of_mem_numeral) hrest.undigit
    have hsign : signed ((if power < 0 then '-' else '+') :: (numeral power.natAbs ++ rest)) =
        (decide (power < 0), numeral power.natAbs ++ rest) := by
      by_cases hneg : power < 0
      · rw [if_pos hneg, decide_eq_true hneg]
        rfl
      · rw [if_neg hneg, decide_eq_false hneg]
        rfl
    show readPower ('e' :: _ :: (numeral power.natAbs ++ rest)) = _
    rw [readPower, if_pos (.inl rfl), hsign, hdigits]
    simp only [Option.map_some, numeralValue_numeral, decide_eq_true_eq, Option.some.injEq,
      Prod.mk.injEq, and_true]
    split <;> omega

namespace Numeral

variable {n : Numeral}

theorem undigit_powerChars (power : Option Int) (hrest : Ends rest) :
    Undigit (power.elim [] powerChars ++ rest) ∧
      (power.elim [] powerChars ++ rest).head? ≠ some '.' := by
  cases power with
  | none => exact ⟨hrest.undigit, hrest.head?_ne (by decide)⟩
  | some power =>
    refine ⟨?_, fun hpoint => absurd (Option.some.inj hpoint) (by decide)⟩
    rintro c ⟨⟩
    rfl

theorem undigit_fraction (fraction : Option (List Char)) (hrest : Undigit rest) :
    Undigit (fraction.elim [] ('.' :: ·) ++ rest) := by
  cases fraction with
  | none => exact hrest
  | some digits =>
    rintro c ⟨⟩
    rfl

theorem Sound.exists_whole (h : n.Sound) :
    ∃ c digits, n.whole = c :: digits ∧ c.isDigit = true := by
  obtain ⟨c, digits, hwhole⟩ := List.exists_cons_of_ne_nil h.whole_ne_nil
  exact ⟨c, digits, hwhole, h.isDigit_of_mem_whole c (hwhole ▸ List.mem_cons_self)⟩

theorem Sound.unsigned_chars (h : n.Sound) (rest : List Char) :
    unsigned (n.chars ++ rest) = (n.negative, n.whole ++
      (n.fraction.elim [] ('.' :: ·) ++ (n.power.elim [] powerChars ++ rest))) := by
  obtain ⟨c, digits, hwhole, hc⟩ := h.exists_whole
  rw [chars, List.append_assoc, List.append_assoc, List.append_assoc]
  cases n.negative with
  | true => rfl
  | false =>
    rw [hwhole]
    show unsigned (c :: _) = _
    unfold unsigned
    split
    · rename_i hminus
      obtain rfl := (List.cons.inj hminus).1
      exact absurd hc (by decide)
    · rfl

/-- A number begins with a minus sign or a digit. -/
theorem Sound.exists_chars (h : n.Sound) :
    ∃ c digits, n.chars = c :: digits ∧ (c = '-' ∨ c.isDigit = true) := by
  obtain ⟨c, digits, hwhole, hc⟩ := h.exists_whole
  rw [chars, hwhole]
  cases n.negative with
  | true => exact ⟨_, _, rfl, .inl rfl⟩
  | false => exact ⟨_, _, rfl, .inr hc⟩

end Numeral

variable {n : Numeral}

/-- A sound number reads as itself. -/
theorem readNumber_chars (h : n.Sound) (hrest : Ends rest) :
    readNumber (n.chars ++ rest) = some (.scalar (.number n), rest) := by
  obtain ⟨hdigit, hpoint⟩ := Numeral.undigit_powerChars n.power hrest
  have hzero : ¬ (1 < n.whole.length ∧ n.whole.head? = some '0') :=
    fun hzero => h.head?_ne hzero.1 hzero.2
  simp only [readNumber, h.unsigned_chars, Option.bind_eq_bind, Option.bind_some, if_neg hzero,
    readDigits_append h.whole_ne_nil h.isDigit_of_mem_whole (Numeral.undigit_fraction _ hdigit),
    readFraction_chars h.fraction_ne_nil h.isDigit_of_mem_fraction hdigit hpoint,
    readPower_chars hrest]

/-- What a number begins with begins nothing else. -/
theorem not_mem_of_begins {c : Char} (hc : c = '-' ∨ c.isDigit = true) {others : List Char}
    (h : others.all (fun d => d ≠ '-' ∧ ¬ d.isDigit) = true) : c ∉ others := by
  intro hmem
  obtain ⟨hminus, hdigit⟩ := of_decide_eq_true (List.all_eq_true.mp h c hmem)
  exact hc.elim hminus hdigit

theorem readToken_number {c : Char} (hc : c = '-' ∨ c.isDigit = true) (rest : List Char) :
    readToken (c :: rest) = readNumber (c :: rest) := by
  have hother : c ∉ ['\x7b', '\x7d', '[', ']', ':', ',', '"', 't', 'f', 'n'] :=
    not_mem_of_begins hc (by decide)
  simp only [List.mem_cons, List.not_mem_nil, or_false, not_or] at hother
  have hword : readWord (c :: rest) = none := by
    unfold readWord
    split <;> simp_all
  unfold readToken
  split <;> simp_all

theorem reads_number (h : n.Sound) : Reads n.chars (.number n) := by
  intro rest hrest
  obtain ⟨c, digits, hchars, hc⟩ := h.exists_chars
  have hspace : c ∉ [' ', '\n', '\t', '\r'] := not_mem_of_begins hc (by decide)
  have hread := readNumber_chars h hrest
  rw [hchars, List.cons_append, ← readToken_number hc] at hread
  rw [hchars, List.cons_append]
  exact tokens_cons (by simpa [isSpace, and_assoc] using hspace) hread

/-! ## Whole numbers -/

def Numeral.ofNat (m : Nat) : Numeral := ⟨false, numeral m, none, none⟩

@[simp] theorem Numeral.natural?_ofNat (m : Nat) : (Numeral.ofNat m).natural? = some m := by
  simp [Numeral.natural?, Numeral.ofNat]

theorem Numeral.sound_ofNat (m : Nat) : (Numeral.ofNat m).Sound where
  whole_ne_nil := numeral_ne_nil m
  isDigit_of_mem_whole := fun _ => isDigit_of_mem_numeral
  head?_ne := fun hlength => head?_numeral_ne (pos_of_one_lt_length_numeral hlength)
  fraction_ne_nil := fun _ h => by cases h
  isDigit_of_mem_fraction := fun _ h => by cases h

theorem reads_numeral (m : Nat) : Reads (numeral m) (.number (Numeral.ofNat m)) := by
  have hchars : (Numeral.ofNat m).chars = numeral m := by
    simp [Numeral.chars, Numeral.ofNat]
  exact hchars ▸ reads_number (Numeral.sound_ofNat m)

end RequestHedging.Json
