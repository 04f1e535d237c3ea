import Os161.Exec.Args

/-!
# Where the arguments of a new program end up

For any argument vector within `MAX_ARGC` strings of fewer than `MAX_ARG_LEN` bytes,
`runprogram_exev` lays out `argv` as a user program expects (`runprogramExev_layout`): the
pointer array at the 8-aligned stack pointer, each entry pointing to a NUL-terminated copy of
its string, the copies disjoint and above the array, and a NULL after the last entry.

`sys_execv` copies one string fewer and one word fewer: its last `argv` entry keeps the kernel
address of the buffer the string was read into (`sysExecv_last_argv_kernel`).

Both go through the copy loop `copyArgs`, whose effect `copyArgs_ok` states once for any block
size that leaves room for the NUL.
-/

namespace Os161

open ByteMem

private theorem except_ok_bind {α β : Type} (x : α) (f : α → Except Errno β) :
    (Except.ok x >>= f) = f x := rfl

theorem copycheck_eq_ok {userptr len : Nat} (hlen : 0 < len) (h : userptr + len ≤ usertop) :
    copycheck userptr len = .ok len := by
  simp only [usertop, kseg0] at h
  have htop : (userptr + len + (2 ^ 32 - 1)) % 2 ^ 32 = userptr + len - 1 := by omega
  simp only [copycheck, htop, usertop, kseg0]
  rw [if_neg (by omega), if_neg (by omega), if_neg (by omega)]

theorem copyoutstr_eq_ok {m : Nat → UInt8} {src : CStr} {dst len : Nat}
    (hlen : src.length + 1 ≤ len) (h : dst + len ≤ usertop) :
    copyoutstr m src dst len = .ok (store m dst (src.bytes ++ [0])) := by
  rw [copyoutstr, copycheck_eq_ok (by omega) h]
  simp only [bind, Except.bind, copystr]
  rw [if_pos ⟨hlen, hlen⟩]

theorem copyout_eq_ok {m : Nat → UInt8} {ws : List Nat} {dst k : Nat} (hk : 0 < k)
    (h : dst + 4 * k ≤ usertop) : copyout m ws dst (4 * k) = .ok (storeWords m dst (ws.take k)) := by
  rw [copyout, copycheck_eq_ok (by omega) h]
  simp only [bind, Except.bind, ne_eq, not_true_eq_false, if_false, storeWords]
  rw [take_flatMap_wordBytes]

/-- The bytes the copy loop takes below its start. -/
def argsSize (blockLen : Nat → Nat) (args : List CStr) : Nat :=
  (args.map fun s => blockLen s.length).sum

/-- The copy loop puts each string with its NUL just below the one before, all of them inside
the stretch it takes below its start, and writes nothing else. -/
theorem copyArgs_ok (blockLen : Nat → Nat) (hb : ∀ l, l + 1 ≤ blockLen l) (args : List CStr)
    (m : Nat → UInt8) (sp : Nat) (hsp : sp ≤ usertop) (hsum : argsSize blockLen args ≤ sp) :
    ∃ m' ptrs, copyArgs blockLen m sp args = .ok (sp - argsSize blockLen args, m', ptrs) ∧
      ptrs.length = args.length ∧
      (∀ p s, (p, s) ∈ ptrs.zip args → sp - argsSize blockLen args ≤ p ∧
        p + (s.length + 1) ≤ sp ∧ load m' p (s.length + 1) = s.bytes ++ [0]) ∧
      (ptrs.zip args).Pairwise (fun a b => b.1 + (b.2.length + 1) ≤ a.1) ∧
      (∀ x, x < sp - argsSize blockLen args ∨ sp ≤ x → m' x = m x) := by
  induction args generalizing m sp with
  | nil =>
    refine ⟨m, [], rfl, rfl, by simp, by simp, fun _ _ => rfl⟩
  | cons s ss ih =>
    have hsize : argsSize blockLen (s :: ss) = blockLen s.length + argsSize blockLen ss := by
      simp [argsSize]
    have hbs := hb s.length
    obtain ⟨sp1, hsp1⟩ : ∃ sp1, sp - blockLen s.length = sp1 := ⟨_, rfl⟩
    have hstr : copyoutstr m s sp1 (blockLen s.length) = .ok (store m sp1 (s.bytes ++ [0])) :=
      copyoutstr_eq_ok hbs (by omega)
    obtain ⟨m', ptrs, hcopy, hlen, hzip, hpw, hframe⟩ :=
      ih (store m sp1 (s.bytes ++ [0])) sp1 (by omega) (by omega)
    have hlen1 : (s.bytes ++ [0]).length = s.length + 1 := by simp [CStr.length]
    refine ⟨m', sp1 :: ptrs, ?_, by simp [hlen], fun p t hpt => ?_, ?_, fun x hx => ?_⟩
    · rw [copyArgs]
      simp only [hsp1, hstr, except_ok_bind, hcopy]
      rw [hsize, ← hsp1, Nat.sub_sub]
    · rw [List.zip_cons_cons, List.mem_cons] at hpt
      rcases hpt with hpt | hpt
      · simp only [Prod.mk.injEq] at hpt
        obtain ⟨rfl, rfl⟩ := hpt
        refine ⟨by omega, by omega, ?_⟩
        -- the later strings lie below `sp1`, so the copy of `s` survives them
        rw [load_congr fun i _ => hframe _ (Or.inr (by omega)), ← hlen1, load_store]
      · obtain ⟨h1, h2, h3⟩ := hzip p t hpt
        exact ⟨by omega, by omega, h3⟩
    · rw [List.zip_cons_cons, List.pairwise_cons]
      exact ⟨fun b hb' => (hzip b.1 b.2 hb').2.1, hpw⟩
    · rw [hframe x (by omega)]
      exact store_apply_of_lt_or_le (by rw [hlen1]; omega)

theorem mem_zip_of_lt {ptrs : List Nat} {args : List CStr} (hlen : ptrs.length = args.length)
    {j : Nat} (hj : j < args.length) : (ptrs[j], args[j]) ∈ ptrs.zip args :=
  List.mem_iff_getElem.2 ⟨j, by simp [hlen, hj], List.getElem_zip⟩

theorem argsSize_le (blockLen : Nat → Nat) {n : Nat} (args : List CStr) (h : ∀ s ∈ args, blockLen s.length ≤ n) :
    argsSize blockLen args ≤ args.length * n := by
  induction args with
  | nil => simp [argsSize]
  | cons s ss ih =>
    have hs := h s (List.mem_cons_self ..)
    have hss := ih fun t ht => h t (List.mem_cons_of_mem _ ht)
    simp only [argsSize, List.map_cons, List.sum_cons, List.length_cons] at hss ⊢
    rw [Nat.succ_mul]
    omega

/-- `runprogram_exev` lays out any argument vector of at most `MAX_ARGC` strings shorter than
`MAX_ARG_LEN` on the user stack: `argc` strings, each copied with its NUL, and an `argv` array of
pointers to them that ends in `NULL`. -/
theorem runprogramExev_layout (args : List CStr) (hn : args.length ≤ maxArgc)
    (hl : ∀ s ∈ args, s.length < maxArgLen) (m : Nat → UInt8) :
    ∃ u, runprogramExev args m = .ok u ∧ u.argc = args.length ∧ u.argv = u.stack ∧
      u.argv % 8 = 0 ∧ userstack - maxStackPages * pageSize ≤ u.argv ∧ u.argv < userstack ∧
      loadWord u.mem (u.argv + 4 * args.length) = 0 ∧
      ∀ j (hj : j < args.length),
        u.argv + 4 * (args.length + 1) ≤ loadWord u.mem (u.argv + 4 * j) ∧
        loadWord u.mem (u.argv + 4 * j) + (args[j].length + 1) ≤ userstack ∧
        load u.mem (loadWord u.mem (u.argv + 4 * j)) (args[j].length + 1) = args[j].bytes ++ [0] ∧
        ∀ k (hk : k < args.length), j < k →
          loadWord u.mem (u.argv + 4 * k) + (args[k].length + 1) ≤
            loadWord u.mem (u.argv + 4 * j) := by
  have hn16 : args.length ≤ 16 := hn
  have hsize : argsSize (fun l => 1 + l) args ≤ 4096 := by
    have := argsSize_le (fun l => 1 + l) (n := 256) args fun s hs => by
      have := hl s hs
      simp only [maxArgLen] at this
      omega
    calc argsSize (fun l => 1 + l) args ≤ args.length * 256 := this
      _ ≤ 16 * 256 := Nat.mul_le_mul_right _ hn16
      _ = 4096 := rfl
  obtain ⟨m1, ptrs, hcopy, hlen, hzip, hpw, -⟩ :=
    copyArgs_ok (fun l => 1 + l) (fun l => by omega) args m userstack le_rfl (by simp only [userstack, usertop, kseg0]; omega)
  have hus : userstack = 2147483648 := rfl
  generalize hS1 : userstack - argsSize (fun l => 1 + l) args = S1 at hcopy hzip
  set sp := S1 - (args.length + 1) * 4 - (S1 - (args.length + 1) * 4) % 8 with hspv
  have hsp : sp + 4 * (ptrs ++ [0]).length ≤ S1 := by
    simp only [List.length_append, List.length_singleton, hlen]
    omega
  have hout : copyout m1 (ptrs ++ [0]) sp ((args.length + 1) * 4) =
      .ok (storeWords m1 sp (ptrs ++ [0])) := by
    have h4 : (args.length + 1) * 4 = 4 * (ptrs ++ [0]).length := by simp [hlen, Nat.mul_comm]
    rw [h4, copyout_eq_ok (by simp) (by simp only [usertop, kseg0]; omega), List.take_length]
  have hrun : runprogramExev args m = .ok ⟨args.length, sp, sp, storeWords m1 sp (ptrs ++ [0])⟩ := by
    simp only [runprogramExev, bind, Except.bind, hcopy]
    rw [← hspv, hout]
  have hentry : ∀ j (hj : j < args.length),
      loadWord (storeWords m1 sp (ptrs ++ [0])) (sp + 4 * j) = ptrs[j] := by
    intro j hj
    have hj' : j < (ptrs ++ [0]).length := by simp [hlen]; omega
    have hp : (ptrs ++ [0])[j] = ptrs[j] := List.getElem_append_left (by omega)
    have hbound : ptrs[j] < 2 ^ 32 := by
      have := (hzip _ _ (mem_zip_of_lt hlen hj)).2.1
      omega
    rw [loadWord_storeWords hj' (by rw [hp]; exact hbound), hp]
  refine ⟨_, hrun, rfl, rfl, ?_, ?_, ?_, ?_, fun j hj => ?_⟩
  · show sp % 8 = 0
    omega
  · show userstack - maxStackPages * pageSize ≤ sp
    simp only [maxStackPages, pageSize]
    omega
  · show sp < userstack
    simp only [List.length_append, List.length_singleton] at hsp
    omega
  · show loadWord (storeWords m1 sp (ptrs ++ [0])) (sp + 4 * args.length) = 0
    have hn' : args.length < (ptrs ++ [0]).length := by simp [hlen]
    rw [loadWord_storeWords hn' (by simp [hlen]), List.getElem_append_right (by omega)]
    simp [hlen]
  · show sp + 4 * (args.length + 1) ≤ _ ∧ _
    obtain ⟨h1, h2, h3⟩ := hzip _ _ (mem_zip_of_lt hlen hj)
    rw [hentry j hj]
    refine ⟨?_, h2, ?_, fun k hk hjk => ?_⟩
    · simp only [List.length_append, List.length_singleton, hlen] at hsp
      omega
    · rw [load_storeWords_of_disjoint (Or.inr (by omega)), h3]
    · rw [hentry k hk]
      have := (List.pairwise_iff_getElem.1 hpw) j k (by simp [hlen]; omega)
        (by simp [hlen]; omega) hjk
      simpa using this

/-- `sys_execv` copies out `argv[0..i-1]` with its last entry still the kernel address of the
buffer the last string was read into: no argument vector of one string or more gets a user
pointer to its last string. -/
theorem sysExecv_last_argv_kernel (args : List CStr) (kbufs : List Nat)
    (hk : kbufs.length = args.length) (hkern : ∀ q ∈ kbufs, usertop ≤ q ∧ q < 2 ^ 32)
    (hpos : 0 < args.length) (hn : args.length ≤ maxArgc)
    (hl : ∀ s ∈ args, s.length < maxArgLen) (m : Nat → UInt8) :
    ∃ u, sysExecv args kbufs m = .ok u ∧ u.argc = args.length ∧
      usertop ≤ loadWord u.mem (u.argv + 4 * (args.length - 1)) := by
  have hn16 : args.length ≤ 16 := hn
  have hus : usertop = 2147483648 := rfl
  have hblock : ∀ l, l + 1 ≤ roundup (1 + l) 8 := fun l => by
    simp only [roundup]
    omega
  have hsize : argsSize (fun l => roundup (1 + l) 8) (args.take (args.length - 1)) ≤ 4096 := by
    have := argsSize_le (fun l => roundup (1 + l) 8) (n := 256)
      (args.take (args.length - 1)) fun s hs => by
        have := hl s (List.mem_of_mem_take hs)
        simp only [maxArgLen] at this
        simp only [roundup]
        omega
    have hlen : (args.take (args.length - 1)).length ≤ 16 := by
      rw [List.length_take]
      omega
    calc _ ≤ (args.take (args.length - 1)).length * 256 := this
      _ ≤ 16 * 256 := Nat.mul_le_mul_right _ hlen
      _ = 4096 := rfl
  obtain ⟨m1, ptrs, hcopy, hlen, -, -, -⟩ := copyArgs_ok _ hblock (args.take (args.length - 1))
    m userstack le_rfl (by simp only [userstack]; omega)
  rw [List.length_take, Nat.min_eq_left (Nat.sub_le _ _)] at hlen
  generalize hS1 : userstack - argsSize (fun l => roundup (1 + l) 8)
    (args.take (args.length - 1)) = S1 at hcopy
  have hS1v : S1 ≤ usertop ∧ usertop - 4096 ≤ S1 := by
    simp only [userstack] at hS1
    omega
  set argv := ptrs ++ (kbufs ++ [0]).drop (args.length - 1)
  have hargv : argv.length = args.length + 1 := by
    simp only [argv, List.length_append, List.length_drop, hlen, List.length_singleton, hk]
    omega
  have hlast : argv[args.length - 1] = kbufs[args.length - 1] := by
    simp only [argv]
    rw [List.getElem_append_right (by omega), List.getElem_drop,
      List.getElem_append_left (by rw [hlen]; omega)]
    congr 1
    omega
  set sp := S1 - roundup (args.length * 4) 8 with hspv
  have hsp : sp + 4 * args.length ≤ S1 := by
    simp only [roundup] at hspv
    omega
  have hout : copyout m1 argv sp (args.length * 4) = .ok (storeWords m1 sp (argv.take args.length)) := by
    rw [Nat.mul_comm, copyout_eq_ok hpos (by omega)]
  have hrun : sysExecv args kbufs m = .ok ⟨args.length, sp, sp, storeWords m1 sp (argv.take args.length)⟩ := by
    simp only [sysExecv, bind, Except.bind, hcopy]
    rw [← hspv, hout]
  refine ⟨_, hrun, rfl, ?_⟩
  show usertop ≤ loadWord (storeWords m1 sp (argv.take args.length)) (sp + 4 * (args.length - 1))
  have hi : args.length - 1 < (argv.take args.length).length := by
    rw [List.length_take, hargv]
    omega
  have htake : (argv.take args.length)[args.length - 1] = kbufs[args.length - 1] := by
    rw [List.getElem_take, hlast]
  have hq := hkern kbufs[args.length - 1] (List.getElem_mem _)
  rw [loadWord_storeWords hi (by rw [htake]; exact hq.2), htake]
  exact hq.1

/-- `argtest a`: the strings `"argtest"` and `"a"`. -/
def argtestArgs : List CStr :=
  [⟨[0x61, 0x72, 0x67, 0x74, 0x65, 0x73, 0x74], by decide⟩, ⟨[0x61], by decide⟩]

theorem sysExecv_last_argv_kernel_argtest :
    ∃ u, sysExecv argtestArgs [0x80031000, 0x80031100] (fun _ => 0) = .ok u ∧ u.argc = 2 ∧
      usertop ≤ loadWord u.mem (u.argv + 4 * (2 - 1)) :=
  sysExecv_last_argv_kernel argtestArgs [0x80031000, 0x80031100] rfl (by decide) (by decide)
    (by decide) (by decide) _

theorem runprogramExev_layout_argtest :
    ∃ u, runprogramExev argtestArgs (fun _ => 0) = .ok u ∧ u.argc = argtestArgs.length ∧
      u.argv = u.stack ∧ u.argv % 8 = 0 ∧ userstack - maxStackPages * pageSize ≤ u.argv ∧
      u.argv < userstack ∧ loadWord u.mem (u.argv + 4 * argtestArgs.length) = 0 ∧
      ∀ j (hj : j < argtestArgs.length),
        u.argv + 4 * (argtestArgs.length + 1) ≤ loadWord u.mem (u.argv + 4 * j) ∧
        loadWord u.mem (u.argv + 4 * j) + (argtestArgs[j].length + 1) ≤ userstack ∧
        load u.mem (loadWord u.mem (u.argv + 4 * j)) (argtestArgs[j].length + 1) =
          argtestArgs[j].bytes ++ [0] ∧
        ∀ k (hk : k < argtestArgs.length), j < k →
          loadWord u.mem (u.argv + 4 * k) + (argtestArgs[k].length + 1) ≤
            loadWord u.mem (u.argv + 4 * j) :=
  runprogramExev_layout argtestArgs (by decide) (by decide) _

/- `argv[2]` is not NULL either: it reads the first four bytes of the copy of `"argtest"`. -/
example : (sysExecv argtestArgs [0x80031000, 0x80031100] (fun _ => 0)).toOption.map
    (fun u => (loadWord u.mem (u.argv + 4), loadWord u.mem (u.argv + 8))) =
    some (0x80031100, 0x61726774) := by
  decide

end Os161
