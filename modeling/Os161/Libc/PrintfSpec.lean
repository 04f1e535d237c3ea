import Mathlib.Data.List.GetD
import Mathlib.Data.List.TakeWhile
import Os161.Libc.Printf

/-!
# Formats of integer conversions

A format here is a list of `Piece`s: literal characters, and conversions
`%[#][-][0][width][l|q]c` with `c` one of `d u o x p` (`Spec`). `Spec.expected` is what such a
conversion is meant to print for a 32-bit argument: a `-` for a negative `%d`, the base prefix,
the numeral of the magnitude, and fill up to the field width on the side the flags choose.

`run_format` runs `__pf_send` over a format piece by piece, from one idle state to the next, and
`vprintf_format` is the whole session: `__vprintf` sends `expectedAll` and returns its length as
an `int`. A width of `2 ^ 31` or more does not fit `spacing`: it wraps, and the field is not
padded (`vprintf_wide_field`).
-/

namespace Os161

namespace Libc

inductive Conv
  | d
  | u
  | o
  | x
  | p
  deriving DecidableEq, Repr

namespace Conv

def char : Conv → Char
  | d => 'd'
  | u => 'u'
  | o => 'o'
  | x => 'x'
  | p => 'p'

def base : Conv → Nat
  | d | u => 10
  | o => 8
  | x | p => 16

theorem char_mem_numberChars (c : Conv) : c.char ∈ numberChars := by
  cases c <;> simp [char, numberChars]

theorem eight_le_base (c : Conv) : 8 ≤ c.base := by
  cases c <;> simp [base]

theorem char_eq_d_iff (c : Conv) : c.char = 'd' ↔ c = .d := by
  cases c <;> simp [char]

theorem setbase_char (c : Conv) (pf : PF) (h : pf.baseprefix = false) :
    pf.setbase c.char = { pf with base := c.base, baseprefix := pf.altformat || c == .p } := by
  cases c <;> cases ha : pf.altformat <;> simp [PF.setbase, char, base, h, ha]

end Conv

inductive SizeMod
  | none
  | l
  | q
  deriving DecidableEq, Repr

def SizeMod.chars : SizeMod → List Char
  | .none => []
  | .l => ['l']
  | .q => ['q']

/-- `%[#][-][0][width][l|q]c`; a width of `0` is no width. -/
structure Spec where
  alt : Bool
  left : Bool
  zero : Bool
  width : Nat
  size : SizeMod
  conv : Conv
  deriving DecidableEq, Repr

namespace Spec

variable (s : Spec)

def flags : List Char :=
  (if s.alt then ['#'] else []) ++ (if s.left then ['-'] else []) ++ (if s.zero then ['0'] else [])

def widthChars : List Char := if s.width = 0 then [] else numeral 10 s.width

def render : List Char := '%' :: (s.flags ++ s.widthChars ++ s.size.chars ++ [s.conv.char])

/-- The argument as the conversion reads it: a signed `int` for `%d`, unsigned otherwise. -/
def value (w : UInt32) : Int := if s.conv = .d then w.toBitVec.toInt else w.toNat

def sign (w : UInt32) : List Char := if s.value w < 0 then ['-'] else []

def basePrefix : List Char :=
  if s.conv = .p ∨ s.conv = .x ∧ s.alt then ['0', 'x']
  else if s.conv = .o ∧ s.alt then ['0'] else []

def fill : Char := if s.zero then '0' else ' '

/-- What the conversion is meant to print for the argument `w`. -/
def expected (w : UInt32) : List Char :=
  let body := numeral s.conv.base (s.value w).natAbs
  let pad := s.width - (s.sign w ++ s.basePrefix ++ body).length
  if s.left then s.sign w ++ s.basePrefix ++ body ++ List.replicate pad s.fill
  else if s.zero then s.sign w ++ s.basePrefix ++ List.replicate pad '0' ++ body
  else List.replicate pad ' ' ++ s.sign w ++ s.basePrefix ++ body

/-- The state `__pf_send` is in when it reaches the conversion character. -/
def pending (out : List Char) (ap : List Arg) (cc : Int) : PF :=
  { PF.idle out ap cc with
    inPct := true, size := if s.size = .none then .INTSZ else .LONGSZ, spacing := s.width,
    rightspc := s.left, fillchar := s.fill, altformat := s.alt }

section Pending

variable (out : List Char) (ap : List Arg) (cc : Int)

@[simp] theorem pending_out : (s.pending out ap cc).out = out := rfl
@[simp] theorem pending_charcount : (s.pending out ap cc).charcount = cc := rfl
@[simp] theorem pending_spacing : (s.pending out ap cc).spacing = s.width := rfl
@[simp] theorem pending_rightspc : (s.pending out ap cc).rightspc = s.left := rfl
@[simp] theorem pending_fillchar : (s.pending out ap cc).fillchar = s.fill := rfl
@[simp] theorem pending_altformat : (s.pending out ap cc).altformat = s.alt := rfl

end Pending

end Spec

inductive Piece
  | lit (c : Char)
  | conv (s : Spec)
  deriving DecidableEq, Repr

namespace Piece

def render : Piece → List Char
  | lit c => [c]
  | conv s => s.render

/-- A literal is neither `%` nor the NUL that ends the format; a field is narrower than
`2 ^ 31`. -/
def Valid : Piece → Prop
  | lit c => c ≠ '%' ∧ c ≠ '\x00'
  | conv s => s.width < 2 ^ 31

instance : DecidablePred Valid := fun p =>
  match p with
  | lit c => inferInstanceAs (Decidable (c ≠ '%' ∧ c ≠ '\x00'))
  | conv s => inferInstanceAs (Decidable (s.width < 2 ^ 31))

/-- The arguments a piece reads. -/
def words : Piece → Nat
  | lit _ => 0
  | conv _ => 1

end Piece

def format (ps : List Piece) : List Char := ps.flatMap Piece.render

/-- What the format `ps` is meant to print with the arguments `ws`. -/
def expectedAll : List Piece → List UInt32 → List Char
  | [], _ => []
  | .lit c :: ps, ws => c :: expectedAll ps ws
  | .conv s :: ps, w :: ws => s.expected w ++ expectedAll ps ws
  | .conv _ :: _, [] => []

/-! ## The argument and the numeral -/

namespace Spec

variable (s : Spec)

theorem value_neg_iff (w : UInt32) : s.value w < 0 ↔ s.conv = .d ∧ 2 ^ 31 ≤ w.toNat := by
  have := w.toNat_lt
  unfold value
  split
  · rw [BitVec.toInt_eq_toNat_cond, UInt32.toNat_toBitVec]
    split <;> simp_all <;> omega
  · simp_all

theorem natAbs_value (w : UInt32) :
    (s.value w).natAbs = if s.conv = .d ∧ 2 ^ 31 ≤ w.toNat then 2 ^ 32 - w.toNat else w.toNat := by
  have := w.toNat_lt
  by_cases hd : s.conv = .d
  · rw [value, if_pos hd, BitVec.toInt_eq_toNat_cond, UInt32.toNat_toBitVec]
    by_cases hneg : 2 ^ 31 ≤ w.toNat
    · rw [if_neg (by omega), if_pos ⟨hd, hneg⟩]
      omega
    · rw [if_pos (by omega), if_neg fun h => hneg h.2, Int.natAbs_natCast]
  · rw [value, if_neg hd, if_neg fun h => hd h.1, Int.natAbs_natCast]

end Spec

theorem length_numeral_le {b n : Nat} (hb : 8 ≤ b) (hn : n < 2 ^ 32) :
    (numeral b n).length ≤ numberBufSize - 1 := by
  unfold numeral
  split
  · simp [numberBufSize]
  · simpa using length_digits_le hb hn

/-! ## Running the format -/

namespace PF

variable (pf : PF)

/-- `__pf_send` over the characters `cs`. -/
def run (cs : List Char) : Option PF := cs.foldlM send pf

theorem run_cons (c : Char) (cs : List Char) : pf.run (c :: cs) = (pf.send c).bind (·.run cs) :=
  rfl

theorem run_append (a b : List Char) : pf.run (a ++ b) = (pf.run a).bind (·.run b) := by
  simp only [run, List.foldlM_append, Option.bind_eq_bind]

@[simp] theorem idle_out (out : List Char) (ap : List Arg) (cc : Int) : (idle out ap cc).out = out :=
  rfl

@[simp] theorem idle_charcount (out : List Char) (ap : List Arg) (cc : Int) :
    (idle out ap cc).charcount = cc :=
  rfl

theorem endfield_print (t : List Char) :
    (pf.print t).endfield = idle (pf.out ++ t) pf.ap (wrapInt (pf.charcount + t.length)) :=
  rfl

end PF

/-- The decimal digits `L`, most significant first, read onto `a` as `__pf_modifier` reads a
width. -/
def decimal (a : Int) (L : List Nat) : Int := L.foldl (fun (a : Int) (d : Nat) => a * 10 + d) a

theorem decimal_cons (a : Int) (d : Nat) (L : List Nat) :
    decimal a (d :: L) = decimal (a * 10 + d) L := rfl

theorem le_decimal : ∀ (L : List Nat) {a : Int}, 0 ≤ a → a ≤ decimal a L
  | [], _, _ => le_rfl
  | d :: L, a, ha => by
    rw [decimal_cons]
    have := le_decimal L (a := a * 10 + d) (by omega)
    omega

theorem decimal_concat (a : Int) (L : List Nat) (d : Nat) :
    decimal a (L ++ [d]) = decimal a L * 10 + d := by
  simp only [decimal, List.foldl_append, List.foldl_cons, List.foldl_nil]

theorem decimal_reverse (ds : List Nat) : decimal 0 ds.reverse = (Nat.ofDigits 10 ds : Nat) := by
  induction ds with
  | nil => rfl
  | cons d ds ih =>
    rw [List.reverse_cons, decimal_concat, ih, Nat.ofDigits_cons]
    push_cast
    ring

theorem digitChar_mem_modifierChars {d : Nat} (hd : d < 10) : digitChar d ∈ modifierChars := by
  interval_cases d <;> simp [digitChar, digits, modifierChars]

theorem run_width : ∀ (L : List Nat) (pf : PF), pf.inPct = true → (∀ d ∈ L, d < 10) →
    0 ≤ pf.spacing → (0 < pf.spacing ∨ ∀ d ∈ L.head?, 0 < d) → decimal pf.spacing L < 2 ^ 31 →
    pf.run (L.map digitChar) = some { pf with spacing := decimal pf.spacing L }
  | [], _, _, _, _, _, _ => rfl
  | d :: L, pf, hin, hL, hs, hpos, hlt => by
    have hd : d < 10 := hL d (by simp)
    have hpos' : 0 < pf.spacing ∨ 0 < d := hpos.imp_right fun h => h d rfl
    rw [decimal_cons] at hlt ⊢
    have hle := le_decimal L (a := pf.spacing * 10 + d) (by omega)
    rw [List.map_cons, PF.run_cons, PF.send_modifier pf hin (digitChar_mem_modifierChars hd),
      PF.modifier_digit pf hd hpos' hs (by omega), Option.bind_some]
    exact run_width L _ hin (fun d' h => hL d' (List.mem_cons_of_mem d h)) (by simp; omega)
      (Or.inl (by simp; omega)) hlt

namespace Spec

variable (s : Spec)

theorem run_flags (out : List Char) (ap : List Arg) (cc : Int) :
    { PF.idle out ap cc with inPct := true }.run s.flags =
      some { PF.idle out ap cc with
        inPct := true, rightspc := s.left, fillchar := s.fill, altformat := s.alt } := by
  obtain ⟨alt, left, zero, width, size, conv⟩ := s
  cases alt <;> cases left <;> cases zero <;>
    simp [flags, fill, PF.run, PF.send, PF.modifier, PF.idle, modifierChars]

theorem run_widthChars (pf : PF) (hin : pf.inPct = true) (h₀ : pf.spacing = 0)
    (hs : s.width < 2 ^ 31) : pf.run s.widthChars = some { pf with spacing := s.width } := by
  unfold widthChars
  split
  · rename_i h
    rw [h, Nat.cast_zero, ← h₀]
    rfl
  · rename_i h
    have hL : ∀ d ∈ (Nat.digits 10 s.width).reverse, d < 10 := fun d hd =>
      Nat.digits_lt_base (by norm_num) (List.mem_reverse.1 hd)
    have hhead : ∀ d ∈ (Nat.digits 10 s.width).reverse.head?, 0 < d := by
      intro d hd
      rw [List.head?_reverse, List.getLast?_eq_some_getLast (Nat.digits_ne_nil_iff_ne_zero.2 h)] at hd
      rw [← Option.some.inj hd]
      exact Nat.pos_of_ne_zero (Nat.getLast_digit_ne_zero 10 h)
    have hdec : decimal pf.spacing (Nat.digits 10 s.width).reverse = s.width := by
      rw [h₀, decimal_reverse, Nat.ofDigits_digits]
    have := run_width _ pf hin hL (by omega) (Or.inr hhead) (by rw [hdec]; exact_mod_cast hs)
    rw [hdec] at this
    rwa [numeral, if_neg h, ← List.map_reverse]

theorem run_size (pf : PF) (hin : pf.inPct = true) (h : pf.size = .INTSZ) :
    pf.run s.size.chars =
      some { pf with size := if s.size = .none then .INTSZ else .LONGSZ } := by
  obtain ⟨out, ap, cc, inPct, size, num, sign, spacing, rightspc, fillchar, base, bp, alt⟩ := pf
  cases h
  cases s.size <;> simp_all [SizeMod.chars, PF.run, PF.send, PF.modifier, modifierChars]

theorem run_modifiers (hs : s.width < 2 ^ 31) (out : List Char) (ap : List Arg) (cc : Int) :
    { PF.idle out ap cc with inPct := true }.run (s.flags ++ s.widthChars ++ s.size.chars) =
      some (s.pending out ap cc) := by
  rw [PF.run_append, PF.run_append, run_flags, Option.bind_some, run_widthChars _ _ rfl rfl hs,
    Option.bind_some, run_size _ _ rfl rfl]
  rfl

theorem expected_eq (w : UInt32) :
    s.expected w = layout s.left s.fill
      (s.width - ((s.sign w).length + s.basePrefix.length +
        (numeral s.conv.base (s.value w).natAbs).length))
      (s.sign w) s.basePrefix (numeral s.conv.base (s.value w).natAbs) := by
  unfold expected layout fill
  cases s.left <;> cases s.zero <;> simp [List.append_assoc, Nat.add_assoc]

theorem basePrefix_eq : basePrefixOf (s.alt || s.conv == .p) s.conv.base = s.basePrefix := by
  obtain ⟨alt, left, zero, width, size, conv⟩ := s
  cases conv <;> cases alt <;> simp [basePrefixOf, basePrefix, Conv.base]

theorem signPrefix_eq (w : UInt32) :
    signPrefixOf (if s.value w < 0 then -1 else 0) = s.sign w := by
  unfold signPrefixOf sign
  split <;> simp_all

theorem length_sign_le (w : UInt32) : (s.sign w).length ≤ 1 := by
  unfold sign
  split <;> simp

theorem length_basePrefix_le : s.basePrefix.length ≤ 2 := by
  unfold basePrefix
  split_ifs <;> simp

theorem send_conv (hs : s.width < 2 ^ 31) {out : List Char} {rest : List Arg} {cc : Int}
    (hcc : wrapInt cc = cc) (w : UInt32) :
    (s.pending out (.word w :: rest) cc).send s.conv.char =
      some (PF.idle (out ++ s.expected w) rest (wrapInt (cc + (s.expected w).length))) := by
  have hw := w.toNat_lt
  have hnum : (s.value w).natAbs < 2 ^ 32 := by rw [natAbs_value]; split <;> omega
  have hgn : (s.pending out (.word w :: rest) cc).getnum s.conv.char =
      some { s.pending out (.word w :: rest) cc with
        ap := rest, sign := if s.value w < 0 then -1 else 0, num := (s.value w).natAbs } := by
    rw [PF.getnum_eq _ rfl]
    simp only [Conv.char_eq_d_iff, natAbs_value, value_neg_iff]
    rfl
  have hlen := length_numeral_le s.conv.eight_le_base hnum
  rw [PF.send_number _ rfl s.conv.char_mem_numberChars, hgn, Option.bind_some,
    Conv.setbase_char _ _ rfl, PF.printnum_eq _ s.conv.eight_le_base hnum, Option.map_some]
  simp only [signPrefix_eq, pending_altformat, basePrefix_eq]
  rw [PF.printstuff_eq _ hcc (by simp only [pending_spacing]; exact_mod_cast hs)
    (by have := s.length_sign_le w; have := s.length_basePrefix_le
        simp only [numberBufSize] at hlen; omega),
    PF.endfield_print]
  simp only [pending_out, pending_charcount, pending_spacing, pending_rightspc, pending_fillchar,
    Int.toNat_sub, expected_eq]

theorem run_render (hs : s.width < 2 ^ 31) {out : List Char} {rest : List Arg} {cc : Int}
    (hcc : wrapInt cc = cc) (w : UInt32) :
    (PF.idle out (.word w :: rest) cc).run s.render =
      some (PF.idle (out ++ s.expected w) rest (wrapInt (cc + (s.expected w).length))) := by
  rw [render, PF.run_cons, PF.send_percent _ rfl, Option.bind_some, PF.run_append,
    run_modifiers s hs, Option.bind_some, PF.run_cons, send_conv s hs hcc, Option.bind_some]
  rfl

theorem width_le_length_expected (w : UInt32) : s.width ≤ (s.expected w).length := by
  unfold expected
  cases s.left <;> cases s.zero <;> simp <;> omega

end Spec

theorem run_lit {c : Char} (hc : c ≠ '%') (h₀ : c ≠ '\x00') (out : List Char) (ap : List Arg)
    (cc : Int) : (PF.idle out ap cc).run [c] = some (PF.idle (out ++ [c]) ap (wrapInt (cc + 1))) := by
  rw [PF.run_cons, PF.send_of_idle _ rfl h₀ hc, Option.bind_some]
  rfl

/-- `__pf_send` over a format goes from idle state to idle state, printing `expectedAll` and
reading one word for each conversion. -/
theorem run_format : ∀ (ps : List Piece) (ws : List UInt32), (∀ p ∈ ps, p.Valid) →
    (ps.map Piece.words).sum ≤ ws.length → ∀ (out : List Char) (rest : List Arg) (cc : Int),
    wrapInt cc = cc →
    (PF.idle out (ws.map .word ++ rest) cc).run (format ps) =
      some (PF.idle (out ++ expectedAll ps ws) ((ws.drop (ps.map Piece.words).sum).map .word ++ rest)
        (wrapInt (cc + (expectedAll ps ws).length)))
  | [], ws, _, _, out, rest, cc, hcc => by
    simp [format, expectedAll, PF.run, hcc]
  | .lit c :: ps, ws, hv, hw, out, rest, cc, hcc => by
    obtain ⟨hc, h₀⟩ : c ≠ '%' ∧ c ≠ '\x00' := hv _ List.mem_cons_self
    have ih := run_format ps ws (fun p hp => hv p (List.mem_cons_of_mem _ hp))
      (by simpa [Piece.words] using hw) (out ++ [c]) rest (wrapInt (cc + 1)) (wrapInt_wrapInt _)
    rw [format, List.flatMap_cons, ← format, Piece.render, PF.run_append, run_lit hc h₀,
      Option.bind_some, ih]
    simp only [expectedAll, Piece.words, List.map_cons, List.sum_cons, zero_add, List.append_assoc,
      List.singleton_append, wrapInt_add_wrapInt, List.length_cons, Nat.cast_add, Nat.cast_one]
    ring_nf
  | .conv s :: ps, w :: ws, hv, hw, out, rest, cc, hcc => by
    have hs : s.width < 2 ^ 31 := hv _ List.mem_cons_self
    have ih := run_format ps ws (fun p hp => hv p (List.mem_cons_of_mem _ hp))
      (by simp [Piece.words] at hw; omega) (out ++ s.expected w) rest
      (wrapInt (cc + (s.expected w).length)) (wrapInt_wrapInt _)
    rw [format, List.flatMap_cons, ← format, Piece.render, PF.run_append, List.map_cons,
      List.cons_append, Spec.run_render s hs hcc, Option.bind_some, ih]
    simp only [expectedAll, Piece.words, List.map_cons, List.sum_cons, List.append_assoc,
      wrapInt_add_wrapInt, List.length_append, Nat.cast_add, add_assoc, List.drop_succ_cons,
      Nat.add_comm 1]
  | .conv _ :: _, [], _, hw, _, _, _, _ => by
    simp [Piece.words] at hw

theorem digitChar_ne_nul (d : Nat) : digitChar d ≠ '\x00' := by
  unfold digitChar
  by_cases hd : d < digits.length
  · rw [List.getD_eq_getElem _ _ hd]
    exact (by simp [digits] : ∀ c ∈ digits, c ≠ '\x00') _ (List.getElem_mem hd)
  · rw [List.getD_eq_default _ _ (by omega)]
    decide

theorem ne_nul_of_mem_render (s : Spec) : ∀ c ∈ s.render, c ≠ '\x00' := by
  have hw : ∀ c ∈ s.widthChars, c ≠ '\x00' := by
    intro c hc
    rcases Nat.eq_zero_or_pos s.width with h | h
    · simp [Spec.widthChars, h] at hc
    · rw [Spec.widthChars, if_neg h.ne', numeral, if_neg h.ne'] at hc
      obtain ⟨d, -, rfl⟩ := List.mem_map.1 (List.mem_reverse.1 hc)
      exact digitChar_ne_nul d
  obtain ⟨alt, left, zero, width, size, conv⟩ := s
  simp only [Spec.render, List.forall_mem_cons, List.forall_mem_append]
  refine ⟨by decide, ⟨⟨⟨?_, hw⟩, ?_⟩, ?_⟩⟩
  · cases alt <;> cases left <;> cases zero <;> simp [Spec.flags]
  · cases size <;> simp [SizeMod.chars]
  · cases conv <;> simp [Conv.char]

theorem ne_nul_of_mem_format {ps : List Piece} (hv : ∀ p ∈ ps, p.Valid) :
    ∀ c ∈ format ps, c ≠ '\x00' := by
  intro c hc
  obtain ⟨p, hp, hc⟩ := List.mem_flatMap.1 hc
  cases p with
  | lit c' =>
    rw [Piece.render, List.mem_singleton] at hc
    exact hc ▸ (hv _ hp).2
  | conv s => exact ne_nul_of_mem_render s c hc

/-- `__vprintf` of a format of literals and integer conversions sends `expectedAll`, and returns
its length as an `int`. -/
theorem vprintf_format (ps : List Piece) (ws : List UInt32) (hv : ∀ p ∈ ps, p.Valid)
    (hw : (ps.map Piece.words).sum ≤ ws.length) :
    vprintf (format ps) (ws.map .word) =
      some (expectedAll ps ws, wrapInt (expectedAll ps ws).length) := by
  have htw : (format ps).takeWhile (· ≠ '\x00') = format ps :=
    List.takeWhile_eq_self_iff.2 fun c hc => by simpa using ne_nul_of_mem_format hv c hc
  have h : (format ps).foldlM PF.send (PF.idle [] (ws.map .word) 0).endfield =
      some (PF.idle (expectedAll ps ws) ((ws.drop (ps.map Piece.words).sum).map .word)
        (wrapInt (expectedAll ps ws).length)) := by
    have h₀ := run_format ps ws hv hw [] [] 0 rfl
    simp only [List.append_nil, List.nil_append, zero_add] at h₀
    exact h₀
  rw [vprintf, htw, Option.bind_eq_bind, h, Option.bind_some, PF.idle_out, PF.idle_charcount]

/-! ## The numeral read back -/

/-- The value of a digit character: its place in the table. -/
def digitVal (c : Char) : Nat := digits.idxOf c

theorem digitVal_digitChar {d : Nat} (hd : d < 16) : digitVal (digitChar d) = d := by
  have h : ∀ e ∈ List.range 16, digitVal (digitChar e) = e := by decide
  exact h d (List.mem_range.2 hd)

theorem digitChar_eq_zero_iff {d : Nat} (hd : d < 16) : digitChar d = '0' ↔ d = 0 := by
  have h : ∀ e ∈ List.range 16, (digitChar e = '0' ↔ e = 0) := by decide
  exact h d (List.mem_range.2 hd)

variable {b : Nat} (hb : 2 ≤ b) (hb₁₆ : b ≤ 16)
include hb hb₁₆

theorem ofDigits_numeral (n : Nat) :
    Nat.ofDigits b ((numeral b n).reverse.map digitVal) = n := by
  unfold numeral
  split
  · rename_i h
    subst h
    rfl
  · rw [List.reverse_reverse, List.map_map]
    have hid : (Nat.digits b n).map (digitVal ∘ digitChar) = Nat.digits b n :=
      (List.map_congr_left fun d hd => digitVal_digitChar
        (lt_of_lt_of_le (Nat.digits_lt_base (by omega) hd) hb₁₆)).trans (List.map_id _)
    rw [hid, Nat.ofDigits_digits]

theorem numeral_head_eq_zero_iff (n : Nat) : (numeral b n).head? = some '0' ↔ n = 0 := by
  unfold numeral
  split
  · simp_all
  · rename_i h
    have hne : Nat.digits b n ≠ [] := Nat.digits_ne_nil_iff_ne_zero.2 h
    rw [← List.map_reverse, List.head?_map, List.head?_reverse,
      List.getLast?_eq_some_getLast hne, Option.map_some, Option.some.injEq,
      digitChar_eq_zero_iff (lt_of_lt_of_le (Nat.digits_lt_base (by omega)
        (List.getLast_mem hne)) hb₁₆)]
    exact iff_of_false (Nat.getLast_digit_ne_zero b h) h

omit hb hb₁₆

theorem printf_integer_exact (ps : List Piece) (ws : List UInt32) (hv : ∀ p ∈ ps, p.Valid)
    (hw : (ps.map Piece.words).sum ≤ ws.length) (hlen : (expectedAll ps ws).length < 2 ^ 31) :
    vprintf (format ps) (ws.map .word) =
      some (expectedAll ps ws, ((expectedAll ps ws).length : Int)) ∧
      ∀ (c : Conv) (n : Nat), Nat.ofDigits c.base ((numeral c.base n).reverse.map digitVal) = n ∧
        ((numeral c.base n).head? = some '0' ↔ n = 0) := by
  have hb : ∀ c : Conv, 2 ≤ c.base ∧ c.base ≤ 16 := by
    intro c
    cases c <;> simp [Conv.base]
  refine ⟨?_, fun c n => ⟨ofDigits_numeral (hb c).1 (hb c).2 n,
    numeral_head_eq_zero_iff (hb c).1 (hb c).2 n⟩⟩
  rw [vprintf_format ps ws hv hw, wrapInt_of_lt (by omega) (by exact_mod_cast hlen)]

theorem printf_integer_exact_sample :
    vprintf (format [.lit 'x', .conv ⟨true, false, true, 12, .l, .x⟩,
        .conv ⟨false, true, false, 13, .none, .d⟩]) ([0xbeef, 0x80000000].map .word) =
      some (expectedAll [.lit 'x', .conv ⟨true, false, true, 12, .l, .x⟩,
          .conv ⟨false, true, false, 13, .none, .d⟩] [0xbeef, 0x80000000],
        ((expectedAll [.lit 'x', .conv ⟨true, false, true, 12, .l, .x⟩,
          .conv ⟨false, true, false, 13, .none, .d⟩] [0xbeef, 0x80000000]).length : Int)) ∧
      ∀ (c : Conv) (n : Nat), Nat.ofDigits c.base ((numeral c.base n).reverse.map digitVal) = n ∧
        ((numeral c.base n).head? = some '0' ↔ n = 0) :=
  printf_integer_exact [.lit 'x', .conv ⟨true, false, true, 12, .l, .x⟩,
    .conv ⟨false, true, false, 13, .none, .d⟩] [0xbeef, 0x80000000] (by decide) (by decide)
    (by decide)

/-- A field of width `2 ^ 31` is not padded: `spacing` wraps to `INT_MIN`. -/
theorem vprintf_wide_field :
    vprintf (format [.conv ⟨false, false, false, 2 ^ 31, .none, .d⟩]) [.word 1] = some (['1'], 1) ∧
      2 ^ 31 ≤ (Spec.expected ⟨false, false, false, 2 ^ 31, .none, .d⟩ 1).length :=
  ⟨by decide +kernel, Spec.width_le_length_expected ⟨false, false, false, 2 ^ 31, .none, .d⟩ 1⟩

end Libc

end Os161
