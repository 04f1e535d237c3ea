import Mathlib.Data.Nat.Digits.Lemmas

/-!
# `__vprintf`

The formatter of `__printf.c`, which `kprintf` and the C library's `printf` both call. A session
is a `PF`: the text given to `sendfunc` so far, the `va_arg`s not yet read, `charcount`, and the
fields of the `%`-conversion being read. `__pf_send` takes the format one character at a time.

`int` arithmetic wraps at 32 bits (`wrapInt`), as `-signednum` of `INT_MIN` does on MIPS; the
field width and the count are `int`s. Reading an argument that is not there, or one of the other
kind, is undefined and is `none`, like a failed `assert`, a division by zero and a write past
`buf`.

`printstuff_eq` says where the padding goes, `digitLoop_eq` that the digit loop writes the
numeral of `num`, and `length_digits_le` that a 32-bit value in base 8 or more fits `buf`.
-/

namespace Os161

namespace Libc

/-- An `int` result: two's complement on 32 bits. -/
def wrapInt (x : Int) : Int := x.bmod (2 ^ 32)

/-- `size`: `USE_LONGLONG` is not defined, so there is no `LLONGSZ`. -/
inductive Size
  | INTSZ
  | LONGSZ
  deriving DecidableEq, Repr

/-- One `va_arg`: a 32-bit word (an `int`, an `unsigned`, a `long` or a pointer on MIPS), or the
characters of the string a `const char *` points to, `none` for `NULL`. -/
inductive Arg
  | word (w : UInt32)
  | str (s : Option (List Char))
  deriving DecidableEq, Repr

structure PF where
  out : List Char
  ap : List Arg
  charcount : Int
  inPct : Bool
  size : Size
  num : Nat
  sign : Int
  spacing : Int
  rightspc : Bool
  fillchar : Char
  base : Nat
  baseprefix : Bool
  altformat : Bool
  deriving DecidableEq, Repr

/-- `"0123456789abcdef"`, the digits `__pf_printnum` prints with. -/
def digits : List Char :=
  ['0', '1', '2', '3', '4', '5', '6', '7', '8', '9', 'a', 'b', 'c', 'd', 'e', 'f']

def digitChar (d : Nat) : Char := digits.getD d '0'

/-- `NUMBER_BUF_SIZE`: `sizeof(long) * CHAR_BIT / 3 + 2`. -/
def numberBufSize : Nat := 4 * 8 / 3 + 2

/-- The characters `__pf_send` hands to `__pf_modifier`. -/
def modifierChars : List Char :=
  ['#', '-', 'q', 'l', '0', '1', '2', '3', '4', '5', '6', '7', '8', '9']

/-- The integer conversions. -/
def numberChars : List Char := ['d', 'o', 'u', 'p', 'x']

namespace PF

variable (pf : PF)

def print (txt : List Char) : PF :=
  { pf with out := pf.out ++ txt, charcount := wrapInt (pf.charcount + txt.length) }

def endfield : PF :=
  { pf with
    inPct := false, size := .INTSZ, num := 0, sign := 0, spacing := 0, rightspc := false,
    fillchar := ' ', base := 0, baseprefix := false, altformat := false }

def modifier (ch : Char) : Option PF :=
  match ch with
  | '#' => some { pf with altformat := true }
  | '-' => some { pf with rightspc := true }
  | 'l' => some (if pf.size = .LONGSZ then pf else { pf with size := .LONGSZ })
  | 'q' => some { pf with size := .LONGSZ }
  | '0' =>
    if pf.spacing > 0 then some { pf with spacing := wrapInt (pf.spacing * 10) }
    else some { pf with fillchar := '0' }
  | _ =>
    if '0' < ch ∧ ch ≤ '9' then
      some { pf with spacing := wrapInt (pf.spacing * 10 + ((ch.toNat - '0'.toNat : Nat) : Int)) }
    else none

def nextArg : Option (Arg × PF) :=
  match pf.ap with
  | a :: rest => some (a, { pf with ap := rest })
  | [] => none

def nextWord : Option (UInt32 × PF) := do
  let (a, pf) ← pf.nextArg
  match a with
  | .word w => some (w, pf)
  | .str _ => none

/-- `__pf_getnum`. Every size reads 32 bits. -/
def getnum (ch : Char) : Option PF := do
  let (w, pf) ← pf.nextWord
  if ch = 'p' then some { pf with num := w.toNat }
  else if ch = 'd' then
    if 2 ^ 31 ≤ w.toNat then some { pf with sign := -1, num := (-w).toNat }
    else some { pf with num := w.toNat }
  else some { pf with num := w.toNat }

def setbase (ch : Char) : PF :=
  let pf :=
    match ch with
    | 'd' | 'u' => { pf with base := 10 }
    | 'x' | 'p' => { pf with base := 16 }
    | 'o' => { pf with base := 8 }
    | _ => pf
  if pf.altformat ∨ ch = 'p' then { pf with baseprefix := true } else pf

def fill (spc : Int) : PF :=
  let f := pf.fillchar
  (List.range spc.toNat).foldl (fun pf _ => pf.print [f]) pf

def printstuff (pre pre2 stuff : List Char) : PF :=
  let len := wrapInt (pre.length + pre2.length + stuff.length)
  let spc := if pf.spacing > len then wrapInt (pf.spacing - len) else 0
  let pf := if spc > 0 ∧ !pf.rightspc ∧ pf.fillchar ≠ '0' then pf.fill spc else pf
  let pf := (pf.print pre).print pre2
  let pf := if spc > 0 ∧ !pf.rightspc ∧ pf.fillchar = '0' then pf.fill spc else pf
  let pf := pf.print stuff
  if spc > 0 ∧ pf.rightspc then pf.fill spc else pf

end PF

/-- The `do … while` loop of `__pf_printnum`. The `x` slots `buf[0..x-1]` are free, left of the
text `acc` written so far; each pass writes the last digit of `xnum` into `buf[x-1]`. -/
def digitLoop (base : Nat) : Nat → Nat → List Char → Option (List Char)
  | 0, _, _ => none
  | x + 1, xnum, acc =>
    let acc := digitChar (xnum % base) :: acc
    if xnum / base > 0 then digitLoop base x (xnum / base) acc else some acc

namespace PF

variable (pf : PF)

/-- `__pf_printnum`; the terminator takes the last slot of `buf`. -/
def printnum : Option PF :=
  if pf.base = 0 then none
  else do
    let x ← digitLoop pf.base (numberBufSize - 1) pf.num []
    let bprefix :=
      if pf.baseprefix ∧ pf.base = 16 then ['0', 'x']
      else if pf.baseprefix ∧ pf.base = 8 then ['0'] else []
    let sprefix := if pf.sign ≠ 0 then ['-'] else []
    some (pf.printstuff sprefix bprefix x)

/-- `__pf_send`. The string of `%c` ends at its first NUL. -/
def send (ch : Char) : Option PF :=
  if ch = '\x00' then none
  else if !pf.inPct ∧ ch ≠ '%' then some (pf.print [ch])
  else if !pf.inPct then some { pf with inPct := true }
  else if ch ∈ modifierChars then pf.modifier ch
  else if ch ∈ numberChars then do
    let pf ← pf.getnum ch
    let pf ← (pf.setbase ch).printnum
    some pf.endfield
  else if ch = 's' then do
    let (a, pf) ← pf.nextArg
    match a with
    | .str s => some (pf.printstuff [] [] (s.getD ['(', 'n', 'u', 'l', 'l', ')'])).endfield
    | .word _ => none
  else do
    let (c, pf) ←
      if ch = 'c' then pf.nextWord.map fun (w, pf) => (Char.ofNat (w.toNat % 256), pf)
      else some (ch, pf)
    some (pf.printstuff [] [] (if c = '\x00' then [] else [c])).endfield

/-- The state between conversions: `__pf_endfield`'s fields. -/
def idle (out : List Char) (ap : List Arg) (charcount : Int) : PF :=
  ⟨out, ap, charcount, false, .INTSZ, 0, 0, 0, false, ' ', 0, false, false⟩

end PF

/-- `__vprintf`: what `sendfunc` was given, and the count returned. -/
def vprintf (format : List Char) (ap : List Arg) : Option (List Char × Int) := do
  let pf ← (format.takeWhile (· ≠ '\x00')).foldlM PF.send (PF.idle [] ap 0).endfield
  some (pf.out, pf.charcount)

/-! ## What each function prints -/

/-- Where `__pf_printstuff` puts `pad` fill characters `f` around `pre ++ pre2 ++ stuff`. -/
def layout (rightspc : Bool) (f : Char) (pad : Nat) (pre pre2 stuff : List Char) : List Char :=
  if rightspc then pre ++ pre2 ++ stuff ++ List.replicate pad f
  else if f = '0' then pre ++ pre2 ++ List.replicate pad f ++ stuff
  else List.replicate pad f ++ pre ++ pre2 ++ stuff

/-- The numeral of `n` in base `b`: its digits, most significant first, with no leading zero. -/
def numeral (b n : Nat) : List Char :=
  if n = 0 then ['0'] else ((Nat.digits b n).map digitChar).reverse

theorem wrapInt_add_wrapInt (a b : Int) : wrapInt (wrapInt a + b) = wrapInt (a + b) :=
  Int.bmod_add_bmod

theorem wrapInt_wrapInt (a : Int) : wrapInt (wrapInt a) = wrapInt a := by
  simpa using wrapInt_add_wrapInt a 0

theorem wrapInt_of_lt {a : Int} (h₀ : -2 ^ 31 ≤ a) (h₁ : a < 2 ^ 31) : wrapInt a = a :=
  Int.bmod_eq_of_le (by norm_num; omega) (by norm_num; omega)

namespace PF

variable (pf : PF)

@[simp] theorem print_out (t : List Char) : (pf.print t).out = pf.out ++ t := rfl
@[simp] theorem print_charcount (t : List Char) :
    (pf.print t).charcount = wrapInt (pf.charcount + t.length) := rfl
@[simp] theorem print_ap (t : List Char) : (pf.print t).ap = pf.ap := rfl
@[simp] theorem print_spacing (t : List Char) : (pf.print t).spacing = pf.spacing := rfl
@[simp] theorem print_rightspc (t : List Char) : (pf.print t).rightspc = pf.rightspc := rfl
@[simp] theorem print_fillchar (t : List Char) : (pf.print t).fillchar = pf.fillchar := rfl

theorem print_print (a b : List Char) : (pf.print a).print b = pf.print (a ++ b) := by
  simp only [print, List.length_append, Nat.cast_add, wrapInt_add_wrapInt, add_assoc,
    List.append_assoc]

theorem print_nil (hc : wrapInt pf.charcount = pf.charcount) : pf.print [] = pf := by
  simp only [print, List.append_nil, List.length_nil, Nat.cast_zero, add_zero, hc]

theorem fill_eq (hc : wrapInt pf.charcount = pf.charcount) (spc : Int) :
    pf.fill spc = pf.print (List.replicate spc.toNat pf.fillchar) := by
  unfold fill
  induction spc.toNat with
  | zero => exact (print_nil pf hc).symm
  | succ n ih =>
    rw [List.range_succ, List.foldl_append, ih, List.foldl_cons, List.foldl_nil, print_print,
      List.replicate_succ']

theorem fill_if (hc : wrapInt pf.charcount = pf.charcount) (c : Prop) [Decidable c] (spc : Int) :
    (if c then pf.fill spc else pf) =
      pf.print (if c then List.replicate spc.toNat pf.fillchar else []) := by
  split
  · exact fill_eq pf hc spc
  · exact (print_nil pf hc).symm

theorem fill_if_print (t : List Char) (c : Prop) [Decidable c] (spc : Int) :
    (if c then (pf.print t).fill spc else pf.print t) =
      (pf.print t).print (if c then List.replicate spc.toNat pf.fillchar else []) :=
  fill_if (pf.print t) (wrapInt_wrapInt _) c spc

/-- `__pf_printstuff` pads `pre ++ pre2 ++ stuff` up to the field width, on the side
`layout` says. -/
theorem printstuff_eq (hc : wrapInt pf.charcount = pf.charcount) {pre pre2 stuff : List Char}
    (hs : pf.spacing < 2 ^ 31) (hlen : pre.length + pre2.length + stuff.length < 2 ^ 31) :
    pf.printstuff pre pre2 stuff = pf.print (layout pf.rightspc pf.fillchar
      (pf.spacing - (pre.length + pre2.length + stuff.length : Nat)).toNat pre pre2 stuff) := by
  set len : Int := ((pre.length + pre2.length + stuff.length : Nat) : Int) with hlen'
  have hwl : wrapInt (pre.length + pre2.length + stuff.length) = len := by
    rw [hlen']; push_cast; exact wrapInt_of_lt (by omega) (by omega)
  have hspc : (if pf.spacing > len then wrapInt (pf.spacing - len) else 0) =
      ((pf.spacing - len).toNat : Int) := by
    split
    · rw [wrapInt_of_lt (by omega) (by omega)]; omega
    · omega
  simp only [printstuff, hwl, hspc, fill_if pf hc, fill_if_print, print_print, print_rightspc,
    print_fillchar, Int.toNat_natCast]
  refine congrArg pf.print ?_
  unfold layout
  generalize (pf.spacing - len).toNat = pad
  obtain rfl | hp := Nat.eq_zero_or_pos pad
  · rcases pf.rightspc <;> by_cases hf : pf.fillchar = '0' <;> simp [hf]
  · rcases pf.rightspc <;> by_cases hf : pf.fillchar = '0' <;> simp [hf, hp]

end PF

theorem digitChar_zero : digitChar 0 = '0' := rfl

/-- The digit loop writes the numeral of `xnum` when `buf` has room for its digits. -/
theorem digitLoop_eq {b : Nat} (hb : 2 ≤ b) {x n : Nat} (acc : List Char)
    (hx : (Nat.digits b n).length ≤ x) (h₀ : 0 < x) :
    digitLoop b x n acc = some (numeral b n ++ acc) := by
  induction x generalizing n acc with
  | zero => omega
  | succ x ih =>
    rw [digitLoop]
    by_cases hq : n / b > 0
    · have hn : 0 < n := Nat.pos_of_ne_zero fun h => by simp [h] at hq
      have hd : Nat.digits b n = n % b :: Nat.digits b (n / b) := Nat.digits_def' hb hn
      have hne : Nat.digits b (n / b) ≠ [] := Nat.digits_ne_nil_iff_ne_zero.2 (by omega)
      have hlen : (Nat.digits b (n / b)).length ≤ x := by simpa [hd] using hx
      have hx₀ : 0 < x := lt_of_lt_of_le (List.length_pos_iff.2 hne) hlen
      rw [if_pos hq, ih _ hlen hx₀]
      simp [numeral, hd, Nat.pos_iff_ne_zero.1 hn, Nat.pos_iff_ne_zero.1 hq]
    · have hlt : n < b := by
        by_contra h
        exact hq (Nat.div_pos (by omega) (by omega))
      rw [if_neg hq]
      rcases Nat.eq_zero_or_pos n with rfl | hn
      · simp [numeral, digitChar_zero]
      · simp [numeral, Nat.digits_of_lt b n hn.ne' hlt, Nat.mod_eq_of_lt hlt, hn.ne']

/-- A 32-bit value has at most eleven digits in base 8 or more: `buf` is long enough. -/
theorem length_digits_le {b n : Nat} (hb : 8 ≤ b) (hn : n < 2 ^ 32) :
    (Nat.digits b n).length ≤ numberBufSize - 1 := by
  rw [Nat.digits_length_le_iff (by omega)]
  calc n < 2 ^ 32 := hn
    _ ≤ 8 ^ 11 := by norm_num
    _ ≤ b ^ 11 := Nat.pow_le_pow_left hb 11

/-- `bprefix`, the base prefix `__pf_printnum` selects. -/
def basePrefixOf ( baseprefix : Bool) (base : Nat) : List Char :=
  if baseprefix ∧ base = 16 then ['0', 'x'] else if baseprefix ∧ base = 8 then ['0'] else []

/-- `sprefix`, the sign prefix. -/
def signPrefixOf (sign : Int) : List Char := if sign ≠ 0 then ['-'] else []

namespace PF

variable (pf : PF)

theorem printnum_eq (hb : 8 ≤ pf.base) (hn : pf.num < 2 ^ 32) :
    pf.printnum = some (pf.printstuff (signPrefixOf pf.sign) (basePrefixOf pf.baseprefix pf.base)
      (numeral pf.base pf.num)) := by
  have hx := digitLoop_eq (by omega) [] (length_digits_le hb hn) (by decide)
  simp only [printnum, if_neg (show pf.base ≠ 0 by omega), hx, List.append_nil,
    Option.bind_eq_bind, Option.bind_some, signPrefixOf, basePrefixOf]

theorem getnum_eq {w : UInt32} {rest : List Arg} (h : pf.ap = .word w :: rest) (ch : Char) :
    pf.getnum ch = some { pf with
      ap := rest,
      sign := if ch = 'd' ∧ 2 ^ 31 ≤ w.toNat then -1 else pf.sign,
      num := if ch = 'd' ∧ 2 ^ 31 ≤ w.toNat then 2 ^ 32 - w.toNat else w.toNat } := by
  have hneg : 2 ^ 31 ≤ w.toNat → (-w).toNat = 2 ^ 32 - w.toNat := fun hw => by
    rw [UInt32.toNat_neg, UInt32.size]
    have := w.toNat_lt
    omega
  simp only [getnum, nextWord, nextArg, h, Option.bind_eq_bind, Option.bind_some]
  by_cases hp : ch = 'p'
  · simp [hp]
  by_cases hd : ch = 'd'
  · by_cases hw : (2147483648 : Nat) ≤ w.toNat
    · simp [hd, hw, hneg hw]
    · simp [hd, hw]
  · simp [hp, hd]

/-! ## One character of the format -/

theorem send_of_idle {c : Char} (h : pf.inPct = false) (h₀ : c ≠ '\x00') (hp : c ≠ '%') :
    pf.send c = some (pf.print [c]) := by
  simp [send, h, h₀, hp]

theorem send_percent (h : pf.inPct = false) : pf.send '%' = some { pf with inPct := true } := by
  simp [send, h]

theorem send_modifier {c : Char} (h : pf.inPct = true) (hc : c ∈ modifierChars) :
    pf.send c = pf.modifier c := by
  have h₀ : c ≠ '\x00' := by rintro rfl; simp [modifierChars] at hc
  simp [send, h, h₀, hc]

theorem send_number {c : Char} (h : pf.inPct = true) (hc : c ∈ numberChars) :
    pf.send c = (pf.getnum c).bind fun pf => ((pf.setbase c).printnum).map endfield := by
  have h₀ : c ≠ '\x00' := by rintro rfl; simp [numberChars] at hc
  have hm : c ∉ modifierChars := by
    simp only [numberChars, List.mem_cons, List.not_mem_nil, or_false] at hc
    rcases hc with rfl | rfl | rfl | rfl | rfl <;> decide
  simp only [send, h, h₀, hc, hm, if_false, if_true, Bool.not_true, Bool.false_eq_true,
    false_and, Option.bind_eq_bind, Option.map_eq_bind, Function.comp_def]

theorem modifier_digit {d : Nat} (hd : d < 10) (hpos : 0 < pf.spacing ∨ 0 < d)
    (hs : 0 ≤ pf.spacing) (hlt : pf.spacing * 10 + d < 2 ^ 31) :
    pf.modifier (digitChar d) = some { pf with spacing := pf.spacing * 10 + d } := by
  have hw : wrapInt (pf.spacing * 10 + d) = pf.spacing * 10 + d := wrapInt_of_lt (by omega) hlt
  -- `0` is a width digit only after another digit; the others add to the width
  interval_cases d
  · have hp : 0 < pf.spacing := by omega
    simpa [modifier, digitChar, digits, hp] using hw
  all_goals simpa [modifier, digitChar, digits] using hw

end PF

end Libc

end Os161
