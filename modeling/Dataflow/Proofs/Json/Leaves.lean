import Dataflow.Json.Reader
import Dataflow.Json.Writer
import Dataflow.Proofs.Trap

/-!
# Literals are read back

A string literal is read back whatever characters it stands for (`readLiteral_escaped`), and so are
the digits of a natural number, unless what follows would go on with the number
(`readNumber_natural`).
-/

namespace Dataflow

section Strings

theorem hexDigit?_hexChar : ∀ n < 16, hexDigit? (hexChar n) = some n := by
  decide

theorem utf8Size_hexChar : ∀ n < 16, (hexChar n).utf8Size = 1 := by
  decide

theorem readUnit_hexChar {n : Nat} (h : n < 256) (rest : List Char) :
    readUnit ('0' :: '0' :: hexChar (n / 16) :: hexChar (n % 16) :: rest) = .ok (n, rest) := by
  have hhigh : n / 16 < 16 := by omega
  have hlow : n % 16 < 16 := by omega
  have hzero : '0'.utf8Size = 1 := by decide
  have hdigit : hexDigit? '0' = some 0 := by decide
  have hvalue : n / 16 * 16 + n % 16 = n := by omega
  simp [readUnit, shorterThan, hzero, utf8Size_hexChar _ hhigh, utf8Size_hexChar _ hlow, hdigit,
    hexDigit?_hexChar _ hhigh, hexDigit?_hexChar _ hlow, hvalue]

/-- The escape of a character below the blank that has no letter of its own. -/
theorem readEscape_unit {c : Char} (h : c < ' ') (rest : List Char) :
    readEscape ('u' :: '0' :: '0' :: hexChar (c.toNat / 16) :: hexChar (c.toNat % 16) :: rest) =
      .ok (some c, rest) := by
  have hsmall : c.toNat < 32 := h
  have htrailing : isTrailing c.toNat = false := by
    simp [isTrailing]
    omega
  have hleading : isLeading c.toNat = false := by
    simp [isLeading]
    omega
  rw [readEscape, readUnit_hexChar (by omega)]
  show (if isTrailing c.toNat = true then _ else _) = _
  rw [htrailing, hleading]
  simp [Char.ofNat_toNat, pure, Except.pure]

/-- An escape by a letter. -/
theorem readString_letter (fuel : Nat) (acc rest : List Char) {letter c : Char}
    (h : simpleEscape? letter = some c) (hletter : letter ≠ 'u') :
    readString (fuel + 1) false acc ('\\' :: letter :: rest) =
      readString fuel false (c :: acc) rest := by
  have hescape : readEscape (letter :: rest) = .ok (some c, rest) := by
    rw [readEscape, h]
    simpa using hletter
  simp [readString, hescape]

theorem readString_escapeChar (fuel : Nat) (acc rest : List Char) (c : Char) :
    readString (fuel + 1) false acc (escapeChar c ++ rest) =
      readString fuel false (c :: acc) rest := by
  unfold escapeChar
  -- the seven characters that have a letter of their own
  iterate 7
    split
    · subst c
      exact readString_letter fuel acc rest rfl (by decide)
  split
  · rename_i hlow
    simp only [List.cons_append, List.nil_append, readString]
    rw [readEscape_unit hlow]
    simp
  · rename_i hquote hslash _ _ _ _ _ hlow
    rw [List.singleton_append, readString, if_neg hquote, if_neg hslash, if_neg hlow]

theorem readString_escaped {fuel : Nat} {acc cs rest : List Char} (h : cs.length < fuel) :
    readString fuel false acc (cs.flatMap escapeChar ++ '"' :: rest) =
      .ok (some (String.ofList (acc.reverse ++ cs)), rest) := by
  induction cs generalizing fuel acc with
  | nil =>
      obtain ⟨fuel, rfl⟩ := Nat.exists_eq_succ_of_ne_zero (Nat.ne_of_gt h)
      simp [readString]
  | cons c cs ih =>
      rw [List.length_cons] at h
      obtain ⟨fuel, rfl⟩ := Nat.exists_eq_succ_of_ne_zero (Nat.ne_of_gt (Nat.zero_lt_of_lt h))
      rw [List.flatMap_cons, List.append_assoc, Nat.succ_eq_add_one, readString_escapeChar,
        ih (by omega)]
      simp

/-- A string literal is read back, whatever its characters. -/
theorem readLiteral_escaped {fuel : Nat} {s : String} {rest : List Char}
    (h : s.toList.length < fuel) :
    readLiteral fuel (s.toList.flatMap escapeChar ++ '"' :: rest) = .ok (some s, rest) := by
  rw [readLiteral, readString_escaped h]
  simp

end Strings

section Numbers

/-- A text that does not go on with a number. -/
def Stops : List Char → Prop
  | [] => True
  | c :: _ => isDigit c = false ∧ c ≠ '.' ∧ c ≠ 'e' ∧ c ≠ 'E'

instance (cs : List Char) : Decidable (Stops cs) :=
  match cs with
  | [] => isTrue trivial
  | c :: _ => inferInstanceAs (Decidable (isDigit c = false ∧ c ≠ '.' ∧ c ≠ 'e' ∧ c ≠ 'E'))

/-- Only the next character decides. -/
theorem stops_cons {c : Char} {cs : List Char} (h : Stops [c]) : Stops (c :: cs) := h

theorem ne_of_isDigit {c d : Char} (hd : isDigit d = true) (hc : isDigit c = false) : d ≠ c := by
  rintro rfl
  rw [hd] at hc
  cases hc

theorem toList_toString (n : Nat) : (toString n).toList = Nat.toDigits 10 n := by
  rw [Nat.toString_eq_ofList_toDigits, String.toList_ofList]

theorem isDigit_of_mem_toDigits {n : Nat} {c : Char} (h : c ∈ Nat.toDigits 10 n) :
    isDigit c = true := by
  have hdigit := Nat.isDigit_of_mem_toDigits (by decide) (by decide) h
  simp only [Char.isDigit, isDigit, Bool.and_eq_true, decide_eq_true_eq] at hdigit ⊢
  exact hdigit

theorem exists_toDigits_eq (n : Nat) :
    ∃ d ds, Nat.toDigits 10 n = d :: ds ∧ isDigit d = true := by
  cases hdigits : Nat.toDigits 10 n with
  | nil => exact absurd hdigits Nat.toDigits_ne_nil
  | cons d ds => exact ⟨d, ds, rfl, isDigit_of_mem_toDigits (n := n) (by simp [hdigits])⟩

theorem digitsValue_toDigits (n : Nat) : digitsValue (Nat.toDigits 10 n) = n := by
  have hfold : ∀ l, digitsValue l = Nat.ofDigitChars 10 l 0 := by
    intro l
    simp only [digitsValue, Nat.ofDigitChars_eq_foldl, Nat.mul_comm]
  rw [hfold, Nat.ofDigitChars_ten_toDigits]

/-- Only the digits of zero begin with a zero. -/
theorem head_toDigits {n : Nat} (h : 0 < n) : (Nat.toDigits 10 n).head? ≠ some '0' := by
  induction n using Nat.strongRecOn with
  | ind n ih =>
      rw [Nat.toDigits_eq_if (by decide)]
      split
      · simpa [Nat.digitChar_eq_zero] using Nat.ne_of_gt h
      · have hdiv := ih (n / 10) (by omega) (by omega)
        obtain ⟨d, ds, hdigits, -⟩ := exists_toDigits_eq (n / 10)
        rw [hdigits] at hdiv ⊢
        simpa using hdiv

theorem takeWhile_toDigits (n : Nat) {rest : List Char} (h : Stops rest) :
    (Nat.toDigits 10 n ++ rest).takeWhile isDigit = Nat.toDigits 10 n ∧
      (Nat.toDigits 10 n ++ rest).dropWhile isDigit = rest := by
  have hall : ∀ c ∈ Nat.toDigits 10 n, isDigit c = true := fun c hc => isDigit_of_mem_toDigits hc
  rw [List.takeWhile_append_of_pos hall, List.dropWhile_append_of_pos hall]
  cases rest with
  | nil => simp
  | cons c rest => simp [h.1]

theorem readWhole_toDigits (n : Nat) {rest : List Char} (h : Stops rest) :
    readWhole (Nat.toDigits 10 n ++ rest) = .ok (Nat.toDigits 10 n, rest) := by
  obtain ⟨htake, hdrop⟩ := takeWhile_toDigits n h
  obtain ⟨d, ds, hdigits, hd⟩ := exists_toDigits_eq n
  rw [hdigits, List.cons_append] at htake hdrop ⊢
  have hread : readDigits (d :: (ds ++ rest)) = .ok (d :: ds, rest) := by
    rw [readDigits, if_pos hd, htake, hdrop]
  rw [readWhole, hread]
  split
  · rename_i heq
    cases heq
    rcases Nat.eq_zero_or_pos n with rfl | hpos
    · rw [Nat.toDigits_zero] at hdigits
      cases hdigits
    · exact absurd (by rw [hdigits]; rfl) (head_toDigits hpos)
  · rfl

/-- The digits of a natural number are read back, unless the text goes on with the number. -/
theorem readNumber_natural (n : Nat) {rest : List Char} (h : Stops rest) :
    readNumber (Nat.toDigits 10 n ++ rest) = .ok (.natural n, rest) := by
  have hfraction : readFraction rest = .ok ([], rest) := by
    cases rest with
    | nil => rfl
    | cons c rest =>
        rw [readFraction]
        simpa using h.2.1
  have hexponent : readExponent rest = .ok ([], rest) := by
    cases rest with
    | nil => rfl
    | cons c rest => simp [readExponent, h.2.2.1, h.2.2.2]
  have hwhole := readWhole_toDigits n h
  have hvalue := digitsValue_toDigits n
  obtain ⟨d, ds, hdigits, hd⟩ := exists_toDigits_eq n
  rw [hdigits] at hvalue
  rw [hdigits, List.cons_append] at hwhole ⊢
  rw [readNumber]
  · refine bind_eq_ok_iff.mpr ⟨_, hwhole, bind_eq_ok_iff.mpr ⟨_, hfraction,
      bind_eq_ok_iff.mpr ⟨_, hexponent, ?_⟩⟩⟩
    show Except.ok (Number.natural (digitsValue (d :: ds)), rest) = _
    rw [hvalue]
  · intro r hr
    exact ne_of_isDigit hd (by decide) (List.cons.inj hr).1

end Numbers
end Dataflow
