/-
# Quoted texts in a listing

What a listing shows between quotes can be read back, whatever stands behind it: each character is
shown in one of three forms, no form begins like another, and the closing quote begins none of
them.  The main facts are `Escaped.quote_append_inj` and `Escaped.onOneLine_quote`.
-/
import ExprFront.Listing.Escaped
import ExprFront.Proofs.RoundTrip.Line

namespace ExprFront

/-! ## Runs of one class -/

/-- Runs of one class are the same if the same text begins with them and nothing prolongs them. -/
theorem append_inj_of_stops {p : Char → Bool} {r s u v : List Char} (hr : ∀ c ∈ r, p c = true)
    (hs : ∀ c ∈ s, p c = true) (hu : Stops p u) (hv : Stops p v) (h : r ++ u = s ++ v) :
    r = s ∧ u = v := by
  constructor
  · rw [← takeWhile_append_of_stops hr hu, h, takeWhile_append_of_stops hs hv]
  · rw [← dropWhile_append_of_stops hr hu, h, dropWhile_append_of_stops hs hv]

/-- Runs of one class can be read off up to a character of another. -/
theorem append_cons_inj {p : Char → Bool} {r s u v : List Char} (hr : ∀ c ∈ r, p c = true)
    (hs : ∀ c ∈ s, p c = true) {c : Char} (hc : p c = false) (h : r ++ c :: u = s ++ c :: v) :
    r = s ∧ u = v := by
  obtain ⟨hrun, hrest⟩ := append_inj_of_stops hr hs (stops_cons.2 hc) (stops_cons.2 hc) h
  exact ⟨hrun, (List.cons.inj hrest).2⟩

/-- A run of a class without blanks is on one line. -/
theorem onOneLine_of_class {p : Char → Bool} {run : List Char} (hrun : ∀ c ∈ run, p c = true)
    (hp : [' ', '\t', '\n', '\r'].all (fun c => !p c) = true) : OnOneLine run := by
  refine onOneLine_of_isBlank fun c hc => ?_
  rw [← Bool.not_eq_true]
  intro hblank
  have hmem : c ∈ [' ', '\t', '\n', '\r'] := by
    simpa [isBlank, or_assoc] using hblank
  have hnone := List.all_eq_true.1 hp c hmem
  rw [hrun c hc] at hnone
  cases hnone

/-! ## Digits -/

/-- The digits up to base 16 stand for different numbers. -/
theorem digitChar_inj {m n : Nat} (hm : m < 16) (hn : n < 16)
    (h : Nat.digitChar m = Nat.digitChar n) : m = n := by
  have hdigits : ∀ m n : Fin 16, Nat.digitChar m = Nat.digitChar n → m = n := by decide
  exact Fin.mk.inj_iff.1 (hdigits ⟨m, hm⟩ ⟨n, hn⟩ h)

/-- What holds of the sixteen digits holds throughout a number in base 16. -/
theorem forall_mem_toDigits {P : Char → Prop} (h : ∀ d : Fin 16, P (Nat.digitChar d)) (n : Nat) :
    ∀ c ∈ Nat.toDigits 16 n, P c := by
  induction n using Nat.strongRecOn with
  | ind n ih =>
      intro c hc
      rw [Nat.toDigits_eq_if (by decide)] at hc
      split at hc
      · next hlt =>
          obtain rfl := List.mem_singleton.1 hc
          exact h ⟨n, hlt⟩
      · next hge =>
          rcases List.mem_append.1 hc with hc | hc
          · exact ih (n / 16) (by omega) c hc
          · obtain rfl := List.mem_singleton.1 hc
            exact h ⟨n % 16, by omega⟩

/-- **A number is determined by its digits**, in any base up to 16. -/
theorem toDigits_inj {base m n : Nat} (hbase : 1 < base) (hdigits : base ≤ 16)
    (h : Nat.toDigits base m = Nat.toDigits base n) : m = n := by
  induction m using Nat.strongRecOn generalizing n with
  | ind m ih =>
      rw [Nat.toDigits_eq_if hbase, Nat.toDigits_eq_if (n := n) hbase] at h
      split at h <;> split at h
      · next hm hn => exact digitChar_inj (by omega) (by omega) (List.singleton_inj.1 h)
      · -- One digit is not two.
        have hone : [] ++ [Nat.digitChar m] =
            Nat.toDigits base (n / base) ++ [Nat.digitChar (n % base)] := h
        exact absurd (List.append_singleton_inj.1 hone).1.symm Nat.toDigits_ne_nil
      · have hone : Nat.toDigits base (m / base) ++ [Nat.digitChar (m % base)] =
            [] ++ [Nat.digitChar n] := h
        exact absurd (List.append_singleton_inj.1 hone).1 Nat.toDigits_ne_nil
      · next hm hn =>
          obtain ⟨hfront, hlast⟩ := List.append_singleton_inj.1 h
          have hquotient : m / base = n / base :=
            ih (m / base) (Nat.div_lt_self (by omega) hbase) hfront
          have hm_lt : m % base < base := Nat.mod_lt m (by omega)
          have hn_lt : n % base < base := Nat.mod_lt n (by omega)
          have hremainder : m % base = n % base := digitChar_inj (by omega) (by omega) hlast
          rw [← Nat.div_add_mod m base, hquotient, hremainder, Nat.div_add_mod]

namespace Escaped

/-! ## Characters -/

/-- The letter that stands for a character behind a backslash, if there is one: the letters that
string literals have, and a zero for the null character. -/
def letter? (c : Char) : Option Char :=
  if c = '\x00' then some '0' else Quoted.letter? c

/-- A letter stands for one character. -/
theorem letter?_inj {c d l : Char} (hc : letter? c = some l) (hd : letter? d = some l) : c = d := by
  unfold letter? at hc hd
  split at hc <;> split at hd
  · simp_all
  · cases hc
    cases Quoted.letter?_eq_some_iff.1 hd
  · cases hd
    cases Quoted.letter?_eq_some_iff.1 hc
  · exact Option.some.inj
      ((Quoted.letter?_eq_some_iff.1 hc).symm.trans (Quoted.letter?_eq_some_iff.1 hd))

/-- No letter announces a code point. -/
theorem letter?_ne_u (c : Char) : letter? c ≠ some 'u' := by
  unfold letter?
  split
  · decide
  · intro h
    cases Quoted.letter?_eq_some_iff.1 h

/-- How a listing shows a character. -/
inductive Shows (c : Char) : List Char → Prop
  /-- As a backslash and a letter. -/
  | letter {l : Char} (h : letter? c = some l) : Shows c ['\\', l]
  /-- As itself. -/
  | itself (h : letter? c = none) : Shows c [c]
  /-- By its code point. -/
  | codePoint : Shows c (codePoint c)

/-- Each character is shown in one of the three forms. -/
theorem shows_char (c : Char) : Shows c (char c) := by
  unfold char
  split
  case h_7 hnull htab hreturn hfeed hquote hbackslash =>
    split
    · refine .itself ?_
      rw [letter?, if_neg hnull]
      unfold Quoted.letter?
      split <;> first | contradiction | rfl
    · exact .codePoint
  all_goals exact .letter rfl

/-- A code point can be read off. -/
theorem codePoint_append_inj {c d : Char} {u v : List Char}
    (h : codePoint c ++ u = codePoint d ++ v) : c = d ∧ u = v := by
  have hdigits : ∀ n, ∀ c ∈ Nat.toDigits 16 n, (c != '\x7d') = true :=
    forall_mem_toDigits (by decide)
  have hbody : Nat.toDigits 16 c.toNat ++ '\x7d' :: u = Nat.toDigits 16 d.toNat ++ '\x7d' :: v := by
    simpa [codePoint] using h
  obtain ⟨hcode, hrest⟩ := append_cons_inj (hdigits _) (hdigits _) rfl hbody
  exact ⟨Char.toNat_inj.1 (toDigits_inj (by decide) (by decide) hcode), hrest⟩

/-- **A character can be read off what shows it.** -/
theorem char_append_inj {c d : Char} {u v : List Char} (h : char c ++ u = char d ++ v) :
    c = d ∧ u = v := by
  have hc := shows_char c
  have hd := shows_char d
  generalize char c = w at h hc
  generalize char d = x at h hd
  cases hc with
  | letter hl =>
      cases hd with
      | letter hm =>
          obtain ⟨rfl, rfl⟩ : _ = _ ∧ u = v := by simpa using h
          exact ⟨letter?_inj hl hm, rfl⟩
      | itself hnone =>
          obtain ⟨rfl, -⟩ := List.cons.inj h
          cases hnone
      | codePoint =>
          obtain ⟨rfl, -⟩ := List.cons.inj (List.cons.inj h).2
          exact absurd hl (letter?_ne_u c)
  | itself hnone =>
      cases hd with
      | letter hm =>
          obtain ⟨rfl, -⟩ := List.cons.inj h
          cases hnone
      | itself => exact List.cons.inj h
      | codePoint =>
          obtain ⟨rfl, -⟩ := List.cons.inj h
          cases hnone
  | codePoint =>
      cases hd with
      | letter hm =>
          obtain ⟨rfl, -⟩ := List.cons.inj (List.cons.inj h).2
          exact absurd hm (letter?_ne_u d)
      | itself hnone =>
          obtain ⟨rfl, -⟩ := List.cons.inj h
          cases hnone
      | codePoint => exact codePoint_append_inj h

/-- Nothing that shows a character begins with the closing quote. -/
theorem char_append_ne (c : Char) (u v : List Char) : char c ++ u ≠ '"' :: v := by
  intro h
  have hc := shows_char c
  generalize char c = w at h hc
  cases hc with
  | letter => exact absurd (List.cons.inj h).1 (by decide)
  | itself hnone =>
      obtain ⟨rfl, -⟩ := List.cons.inj h
      cases hnone
  | codePoint => exact absurd (List.cons.inj h).1 (by decide)

/-! ## Texts -/

/-- Characters one behind the other can be read off up to the closing quote. -/
theorem flatMap_char_append_inj {s t u v : List Char}
    (h : s.flatMap char ++ '"' :: u = t.flatMap char ++ '"' :: v) : s = t ∧ u = v := by
  induction s generalizing t with
  | nil =>
      cases t with
      | nil => exact ⟨rfl, (List.cons.inj h).2⟩
      | cons d t =>
          rw [List.flatMap_cons, List.append_assoc] at h
          exact absurd h.symm (char_append_ne d _ _)
  | cons c s ih =>
      rw [List.flatMap_cons, List.append_assoc] at h
      cases t with
      | nil => exact absurd h (char_append_ne c _ _)
      | cons d t =>
          rw [List.flatMap_cons, List.append_assoc] at h
          obtain ⟨rfl, hrest⟩ := char_append_inj h
          obtain ⟨rfl, hbehind⟩ := ih hrest
          exact ⟨rfl, hbehind⟩

/-- The characters between the quotes, and what stands behind them. -/
theorem toList_quote_append (text : String) (u : List Char) :
    (quote text).toList ++ u = '"' :: (text.toList.flatMap char ++ '"' :: u) := by
  simp [quote]

/-- **A quoted text can be read back**, whatever stands behind it. -/
theorem quote_append_inj {s t : String} {u v : List Char}
    (h : (quote s).toList ++ u = (quote t).toList ++ v) : s = t ∧ u = v := by
  rw [toList_quote_append, toList_quote_append] at h
  obtain ⟨htext, hrest⟩ := flatMap_char_append_inj (List.cons.inj h).2
  exact ⟨String.toList_inj.1 htext, hrest⟩

/-- A character is shown on one line. -/
theorem onOneLine_char (c : Char) : OnOneLine (char c) := by
  have hc := shows_char c
  generalize char c = w at hc
  cases hc with
  | letter h =>
      unfold letter? at h
      split at h
      · cases h
        exact by decide
      · refine onOneLine_of_isBlank fun x hx => ?_
        rcases List.mem_pair.1 hx with rfl | rfl
        · rfl
        · exact Quoted.isBlank_eq_false_of_letter? h
  | itself h =>
      unfold letter? at h
      split at h
      · cases h
      · intro x hx hblank
        obtain rfl := List.mem_singleton.1 hx
        exact Quoted.eq_space_of_letter?_eq_none h hblank
  | codePoint =>
      refine OnOneLine.append (s := ['\\', 'u', '\x7b']) (by decide) ?_
      have hdigits : ∀ x ∈ Nat.toDigits 16 c.toNat, isBlank x = false :=
        forall_mem_toDigits (by decide) _
      exact (onOneLine_of_isBlank hdigits).append (by decide)

/-- **A quoted text is on one line.** -/
theorem onOneLine_quote (text : String) : OnOneLine (quote text).toList := by
  have hbody : OnOneLine (text.toList.flatMap char) := by
    intro x hx
    obtain ⟨c, -, hc⟩ := List.mem_flatMap.1 hx
    exact onOneLine_char c x hc
  have hquote : OnOneLine ['"'] := by decide
  rw [quote, String.toList_ofList]
  exact hquote.append (hbody.append hquote)

end Escaped

end ExprFront
