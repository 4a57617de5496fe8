import Mathlib

/-! # Percent-encoding of strings

ECMAScript strings are sequences of UTF-16 code units, lone surrogates included. `encodeURIComponent`
writes every code point outside a small ASCII set as the escaped octets of its UTF-8 form and throws
on a lone surrogate; `decodeURIComponent` reads such text back.
-/

namespace EscrowFlow.Foundations.Js
set_option autoImplicit false

abbrev CodeUnit := UInt16

abbrev JsString := List CodeUnit

/-! ## UTF-16 -/

def Lead (c : CodeUnit) : Prop := 0xD800 ≤ c.toNat ∧ c.toNat < 0xDC00

def Trail (c : CodeUnit) : Prop := 0xDC00 ≤ c.toNat ∧ c.toNat < 0xE000

instance (c : CodeUnit) : Decidable (Lead c) := by unfold Lead; infer_instance
instance (c : CodeUnit) : Decidable (Trail c) := by unfold Trail; infer_instance

/-- The code point of a surrogate pair. -/
def pairValue (lead trail : CodeUnit) : ℕ :=
  0x10000 + (lead.toNat - 0xD800) * 0x400 + (trail.toNat - 0xDC00)

/-- The code points that are no surrogates. -/
def Scalar (v : ℕ) : Prop := v < 0xD800 ∨ 0xE000 ≤ v ∧ v < 0x110000

instance (v : ℕ) : Decidable (Scalar v) := by unfold Scalar; infer_instance

/-- `UTF16EncodeCodePoint` -/
def utf16 (v : ℕ) : JsString :=
  if v < 0x10000 then [.ofNat v]
  else [.ofNat (0xD800 + (v - 0x10000) / 0x400), .ofNat (0xDC00 + (v - 0x10000) % 0x400)]

/-- The strings without lone surrogates. -/
inductive WellFormed : JsString → Prop
  | nil : WellFormed []
  | unit {c : CodeUnit} {s : JsString} (lead : ¬Lead c) (trail : ¬Trail c) (h : WellFormed s) :
      WellFormed (c :: s)
  | pair {l t : CodeUnit} {s : JsString} (lead : Lead l) (trail : Trail t) (h : WellFormed s) :
      WellFormed (l :: t :: s)

theorem Lead.not_trail {c : CodeUnit} (h : Lead c) : ¬Trail c := by
  unfold Lead at h
  unfold Trail
  omega

theorem utf16_unit {c : CodeUnit} : utf16 c.toNat = [c] := by
  unfold utf16
  rw [if_pos c.toNat_lt, UInt16.ofNat_toNat]

theorem utf16_pair {l t : CodeUnit} (hl : Lead l) (ht : Trail t) :
    utf16 (pairValue l t) = [l, t] := by
  unfold Lead at hl
  unfold Trail at ht
  have hhigh : 0xD800 + (pairValue l t - 0x10000) / 0x400 = l.toNat := by
    unfold pairValue
    omega
  have hlow : 0xDC00 + (pairValue l t - 0x10000) % 0x400 = t.toNat := by
    unfold pairValue
    omega
  have hbig : ¬pairValue l t < 0x10000 := by
    unfold pairValue
    omega
  unfold utf16
  rw [if_neg hbig, hhigh, hlow, UInt16.ofNat_toNat, UInt16.ofNat_toNat]

theorem scalar_unit {c : CodeUnit} (hl : ¬Lead c) (ht : ¬Trail c) : Scalar c.toNat := by
  have hc := c.toNat_lt
  unfold Lead at hl
  unfold Trail at ht
  unfold Scalar
  omega

theorem scalar_pair {l t : CodeUnit} (hl : Lead l) (ht : Trail t) : Scalar (pairValue l t) := by
  unfold Lead at hl
  unfold Trail at ht
  unfold Scalar pairValue
  omega

/-- A code unit that is no surrogate splits a well-formed string into two. -/
theorem WellFormed.split {c : CodeUnit} (hl : ¬Lead c) (ht : ¬Trail c) {a b : JsString}
    (h : WellFormed (a ++ c :: b)) : WellFormed a ∧ WellFormed b := by
  generalize hs : a ++ c :: b = s at h
  induction h generalizing a with
  | nil => simp at hs
  | @unit d s' lead trail h ih =>
    cases a with
    | nil =>
      obtain ⟨-, rfl⟩ := List.cons.inj hs
      exact ⟨.nil, h⟩
    | cons x a =>
      injection hs with hx hs
      subst hx
      exact ⟨.unit lead trail (ih hs).1, (ih hs).2⟩
  | @pair l t s' lead trail h ih =>
    cases a with
    | nil =>
      obtain ⟨rfl, -⟩ := List.cons.inj hs
      exact absurd lead hl
    | cons x a =>
      injection hs with hx hs
      subst hx
      cases a with
      | nil =>
        injection hs with hc
        subst hc
        exact absurd trail ht
      | cons y a =>
        injection hs with hy hs
        subst hy
        exact ⟨.pair lead trail (ih hs).1, (ih hs).2⟩

/-! ## UTF-8 -/

def utf8 (v : ℕ) : List ℕ :=
  if v < 0x80 then [v]
  else if v < 0x800 then [0xC0 + v / 0x40, 0x80 + v % 0x40]
  else if v < 0x10000 then [0xE0 + v / 0x1000, 0x80 + v / 0x40 % 0x40, 0x80 + v % 0x40]
  else [0xF0 + v / 0x40000, 0x80 + v / 0x1000 % 0x40, 0x80 + v / 0x40 % 0x40, 0x80 + v % 0x40]

/-- The code point `octets` would stand for, were they a valid encoding. -/
def assemble : List ℕ → ℕ
  | [a] => a
  | [a, b] => (a - 0xC0) * 0x40 + (b - 0x80)
  | [a, b, c] => (a - 0xE0) * 0x1000 + (b - 0x80) * 0x40 + (c - 0x80)
  | [a, b, c, d] => (a - 0xF0) * 0x40000 + (b - 0x80) * 0x1000 + (c - 0x80) * 0x40 + (d - 0x80)
  | _ => 0

/-- The code point of which `octets` is the UTF-8 encoding: overlong forms and surrogates are not. -/
def decodeUtf8 (octets : List ℕ) : Option ℕ :=
  if Scalar (assemble octets) ∧ utf8 (assemble octets) = octets then some (assemble octets)
  else none

/-- How many octets the encoding that starts with `first` has; none starts with a continuation. -/
def octetCount (first : ℕ) : ℕ :=
  if first < 0x80 then 1
  else if first < 0xC0 then 0
  else if first < 0xE0 then 2
  else if first < 0xF0 then 3
  else if first < 0xF8 then 4
  else 0

theorem utf8_lt {v : ℕ} (h : Scalar v) : ∀ b ∈ utf8 v, b < 0x100 := by
  unfold Scalar at h
  unfold utf8
  intro b hb
  split_ifs at hb <;> simp only [List.mem_cons, List.not_mem_nil, or_false] at hb <;> omega

theorem assemble_utf8 (v : ℕ) : assemble (utf8 v) = v := by
  unfold utf8
  split_ifs
  · rfl
  · show (0xC0 + v / 0x40 - 0xC0) * 0x40 + (0x80 + v % 0x40 - 0x80) = v
    omega
  · show (0xE0 + v / 0x1000 - 0xE0) * 0x1000 + (0x80 + v / 0x40 % 0x40 - 0x80) * 0x40 +
      (0x80 + v % 0x40 - 0x80) = v
    omega
  · show (0xF0 + v / 0x40000 - 0xF0) * 0x40000 + (0x80 + v / 0x1000 % 0x40 - 0x80) * 0x1000 +
      (0x80 + v / 0x40 % 0x40 - 0x80) * 0x40 + (0x80 + v % 0x40 - 0x80) = v
    omega

theorem decodeUtf8_utf8 {v : ℕ} (h : Scalar v) : decodeUtf8 (utf8 v) = some v := by
  unfold decodeUtf8
  rw [assemble_utf8, if_pos ⟨h, rfl⟩]

theorem octetCount_two {x : ℕ} (h : x < 0x20) : octetCount (0xC0 + x) = 2 := by
  unfold octetCount
  rw [if_neg (by omega), if_neg (by omega), if_pos (by omega)]

theorem octetCount_three {x : ℕ} (h : x < 0x10) : octetCount (0xE0 + x) = 3 := by
  unfold octetCount
  rw [if_neg (by omega), if_neg (by omega), if_neg (by omega), if_pos (by omega)]

theorem octetCount_four {x : ℕ} (h : x < 0x8) : octetCount (0xF0 + x) = 4 := by
  unfold octetCount
  rw [if_neg (by omega), if_neg (by omega), if_neg (by omega), if_neg (by omega), if_pos (by omega)]

theorem utf8_cons {v : ℕ} (h : Scalar v) :
    ∃ first rest, utf8 v = first :: rest ∧ octetCount first = rest.length + 1 := by
  unfold Scalar at h
  unfold utf8
  split_ifs with h₁ h₂ h₃
  · exact ⟨v, [], rfl, if_pos h₁⟩
  · exact ⟨_, _, rfl, octetCount_two (by omega)⟩
  · exact ⟨_, _, rfl, octetCount_three (by omega)⟩
  · exact ⟨_, _, rfl, octetCount_four (by omega)⟩

/-! ## Escapes -/

def hexDigit (d : ℕ) : CodeUnit := .ofNat (if d < 10 then 0x30 + d else 0x37 + d)

def hexValue (c : CodeUnit) : Option ℕ :=
  let n := c.toNat
  if 0x30 ≤ n ∧ n ≤ 0x39 then some (n - 0x30)
  else if 0x41 ≤ n ∧ n ≤ 0x46 then some (n - 0x37)
  else if 0x61 ≤ n ∧ n ≤ 0x66 then some (n - 0x57)
  else none

/-- `%XX` for each octet. -/
def escape (octets : List ℕ) : JsString :=
  octets.flatMap fun b => [0x25, hexDigit (b / 16), hexDigit (b % 16)]

/-- The octet of an escape at the start of a string, and what follows it. -/
def unescapeOctet : JsString → Option (ℕ × JsString)
  | p :: h :: l :: rest => do
    if p = 0x25 then
      let high ← hexValue h
      let low ← hexValue l
      return (high * 16 + low, rest)
    else none
  | _ => none

def unescapeOctets : ℕ → JsString → Option (List ℕ × JsString)
  | 0, s => some ([], s)
  | k + 1, s => do
    let (b, s) ← unescapeOctet s
    let (octets, s) ← unescapeOctets k s
    return (b :: octets, s)

theorem hexValue_hexDigit : ∀ d < 16, hexValue (hexDigit d) = some d := by decide

theorem unescapeOctet_escape {b : ℕ} (hb : b < 0x100) (rest : JsString) :
    unescapeOctet (0x25 :: hexDigit (b / 16) :: hexDigit (b % 16) :: rest) = some (b, rest) := by
  have hhigh := hexValue_hexDigit (b / 16) (by omega)
  have hlow := hexValue_hexDigit (b % 16) (by omega)
  have hvalue : b / 16 * 16 + b % 16 = b := by omega
  simp [unescapeOctet, hhigh, hlow, hvalue]

theorem unescapeOctets_escape {octets : List ℕ} (h : ∀ b ∈ octets, b < 0x100) (rest : JsString) :
    unescapeOctets octets.length (escape octets ++ rest) = some (octets, rest) := by
  induction octets with
  | nil => rfl
  | cons b octets ih =>
    have hfirst := unescapeOctet_escape (h b List.mem_cons_self) (escape octets ++ rest)
    have hrest := ih fun x hx => h x (List.mem_cons_of_mem b hx)
    show (unescapeOctet (0x25 :: hexDigit (b / 16) :: hexDigit (b % 16) :: (escape octets ++ rest))
      >>= _) = _
    rw [hfirst]
    simp [hrest]

/-! ## The two functions -/

/-- `A-Z a-z 0-9 - _ . ! ~ * ' ( )` -/
def Unescaped (c : CodeUnit) : Prop :=
  0x41 ≤ c.toNat ∧ c.toNat ≤ 0x5A ∨ 0x61 ≤ c.toNat ∧ c.toNat ≤ 0x7A ∨
    0x30 ≤ c.toNat ∧ c.toNat ≤ 0x39 ∨
    c.toNat ∈ [0x2D, 0x5F, 0x2E, 0x21, 0x7E, 0x2A, 0x27, 0x28, 0x29]

instance (c : CodeUnit) : Decidable (Unescaped c) := by unfold Unescaped; infer_instance

/-- `none` is a `URIError`. -/
def encodeURIComponent : JsString → Option JsString
  | [] => some []
  | c :: rest =>
    if Unescaped c then (encodeURIComponent rest).map (c :: ·)
    else if Trail c then none
    else if Lead c then
      match rest with
      | [] => none
      | t :: rest =>
        if Trail t then (encodeURIComponent rest).map (escape (utf8 (pairValue c t)) ++ ·) else none
    else (encodeURIComponent rest).map (escape (utf8 c.toNat) ++ ·)

/-- `k` bounds the length of the string that is left. -/
def decode : ℕ → JsString → Option JsString
  | _, [] => some []
  | 0, _ :: _ => none
  | k + 1, c :: rest =>
    if c ≠ 0x25 then (decode k rest).map (c :: ·)
    else do
      let (first, _) ← unescapeOctet (c :: rest)
      let (octets, rest) ← unescapeOctets (octetCount first) (c :: rest)
      let v ← decodeUtf8 octets
      (decode k rest).map (utf16 v ++ ·)

def decodeURIComponent (s : JsString) : Option JsString := decode s.length s

/-- What an encoded component is made of. -/
def Encoded (c : CodeUnit) : Prop := Unescaped c ∨ c = 0x25

theorem hexDigit_unescaped : ∀ d < 16, Unescaped (hexDigit d) := by decide

theorem escape_encoded {octets : List ℕ} (h : ∀ b ∈ octets, b < 0x100) :
    ∀ c ∈ escape octets, Encoded c := by
  intro c hc
  obtain ⟨b, hb, hc⟩ := List.mem_flatMap.mp hc
  have hlt := h b hb
  simp only [List.mem_cons, List.not_mem_nil, or_false] at hc
  rcases hc with rfl | rfl | rfl
  · exact .inr rfl
  · exact .inl (hexDigit_unescaped _ (by omega))
  · exact .inl (hexDigit_unescaped _ (by omega))

/-- One round of the decoder on an escaped code point. -/
theorem decode_escape {v : ℕ} (h : Scalar v) (k : ℕ) (rest : JsString) :
    decode (k + 1) (escape (utf8 v) ++ rest) = (decode k rest).map (utf16 v ++ ·) := by
  obtain ⟨first, others, hutf8, hcount⟩ := utf8_cons h
  have hlt := utf8_lt h
  have hoctets := unescapeOctets_escape hlt rest
  have hvalue := decodeUtf8_utf8 h
  rw [hutf8] at hlt hoctets hvalue ⊢
  have hfirst := unescapeOctet_escape (hlt first List.mem_cons_self) (escape others ++ rest)
  rw [List.length_cons, ← hcount] at hoctets
  have hshape : escape (first :: others) ++ rest =
    0x25 :: hexDigit (first / 16) :: hexDigit (first % 16) :: (escape others ++ rest) := rfl
  rw [hshape] at hoctets ⊢
  simp [decode, hfirst, hoctets, hvalue]

theorem encodeURIComponent_pair {l t : CodeUnit} (hl : Lead l) (ht : Trail t) (rest : JsString) :
    encodeURIComponent (l :: t :: rest) =
      (encodeURIComponent rest).map (escape (utf8 (pairValue l t)) ++ ·) := by
  have hplain : ¬Unescaped l := by
    unfold Lead at hl
    unfold Unescaped
    simp only [List.mem_cons, List.not_mem_nil, or_false]
    omega
  simp only [encodeURIComponent]
  rw [if_neg hplain, if_neg hl.not_trail, if_pos hl, if_pos ht]

theorem encodeURIComponent_unit {c : CodeUnit} (hc : ¬Unescaped c) (hl : ¬Lead c) (ht : ¬Trail c)
    (rest : JsString) : encodeURIComponent (c :: rest) =
      (encodeURIComponent rest).map (escape (utf8 c.toNat) ++ ·) := by
  rw [encodeURIComponent.eq_def (c :: rest)]
  dsimp only
  rw [if_neg hc, if_neg ht, if_neg hl]

/-- `e` is the encoding of `s`, and decodes to it. -/
structure Encodes (s e : JsString) : Prop where
  encode : encodeURIComponent s = some e
  encoded : ∀ c ∈ e, Encoded c
  decode : ∀ k, e.length ≤ k → decode k e = some s

theorem Encodes.nil : Encodes [] [] where
  encode := rfl
  encoded := nofun
  decode k _ := by cases k <;> rfl

theorem Encodes.plain {s e : JsString} (h : Encodes s e) {c : CodeUnit} (hc : Unescaped c) :
    Encodes (c :: s) (c :: e) where
  encode := by
    rw [encodeURIComponent.eq_def]
    dsimp only
    rw [if_pos hc, h.encode]
    rfl
  encoded x hx := by
    rcases List.mem_cons.mp hx with rfl | hx
    · exact .inl hc
    · exact h.encoded x hx
  decode k hk := by
    cases k with
    | zero => exact absurd hk (Nat.not_succ_le_zero _)
    | succ k =>
      have hne : c ≠ 0x25 := by
        rintro rfl
        exact absurd hc (by decide)
      unfold Js.decode
      rw [if_pos hne, h.decode k (Nat.le_of_succ_le_succ hk)]
      rfl

/-- An escaped code point in front of an encoding. -/
theorem Encodes.escape {s e : JsString} (h : Encodes s e) {v : ℕ} (hv : Scalar v)
    (hencode : encodeURIComponent (utf16 v ++ s) =
      (encodeURIComponent s).map (Js.escape (utf8 v) ++ ·)) :
    Encodes (utf16 v ++ s) (Js.escape (utf8 v) ++ e) where
  encode := by
    rw [hencode, h.encode]
    rfl
  encoded x hx := by
    rcases List.mem_append.mp hx with hx | hx
    · exact escape_encoded (utf8_lt hv) x hx
    · exact h.encoded x hx
  decode k hk := by
    have hlength : 0 < (Js.escape (utf8 v)).length := by
      obtain ⟨first, others, hutf8, -⟩ := utf8_cons hv
      rw [hutf8]
      exact Nat.succ_pos _
    rw [List.length_append] at hk
    cases k with
    | zero => omega
    | succ k =>
      rw [decode_escape hv, h.decode k (by omega)]
      rfl

theorem WellFormed.encodes {s : JsString} (h : WellFormed s) : ∃ e, Encodes s e := by
  induction h with
  | nil => exact ⟨[], .nil⟩
  | @unit c s lead trail h ih =>
    obtain ⟨e, he⟩ := ih
    by_cases hc : Unescaped c
    · exact ⟨c :: e, he.plain hc⟩
    · have hunit := he.escape (scalar_unit lead trail)
      rw [utf16_unit] at hunit
      exact ⟨_, hunit (encodeURIComponent_unit hc lead trail s)⟩
  | @pair l t s lead trail h ih =>
    obtain ⟨e, he⟩ := ih
    have hpair := he.escape (scalar_pair lead trail)
    rw [utf16_pair lead trail] at hpair
    exact ⟨_, hpair (encodeURIComponent_pair lead trail s)⟩

theorem Encodes.decodes {s e : JsString} (h : Encodes s e) : decodeURIComponent e = some s := by
  unfold decodeURIComponent
  exact h.decode e.length (Nat.le_refl _)

end EscrowFlow.Foundations.Js
