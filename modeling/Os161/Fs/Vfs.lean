import Os161.Lib.Sys
import Os161.Thread.Basic

/-!
# The VFS device table

`kern/fs/vfs/vfslist.c`: the table `knowndevs` of named devices and file systems, the calls that
add to it (`vfs_adddev` and `vfs_addfs`, through `vfs_doadd`), that mount and unmount a file system
on a mountable device (`vfs_mount` and `vfs_unmount`, through `findmount`), and the lookup of a
name (`vfs_getroot`). Every call runs with `knowndevs_lock` held, so each is one atomic step; the
allocations `vfs_doadd` makes before it takes the lock touch only the heap.

A device, a file system and a vnode are named by their identities. The heap is the list of the
blocks `vfs_doadd` allocated and has not freed, so that what a failed call leaves allocated can be
stated. A file system brings its volume name (`FSOP_GETVOLNAME`, which may be `NULL`); which
allocation fails, what the mount function returns and what `FSOP_SYNC` and `FSOP_UNMOUNT` return
are the caller's choices.

`vfs_getroot` resolves a name through the first entry that carries it (`vfsGetroot_eq_find`), so
its answer does not depend on the order of the table as long as no name is carried twice
(`vfsGetroot_perm`). `badnames` keeps `vfs_doadd` from bringing in a name that is there already
(`vfsDoadd_knowndevs`), but `vfs_mount` brings in the volume name of the file system it mounts
without a check (`vfsMount_names`); with that check, and one between the names `vfs_addfs` gives a
single entry, no name would be carried twice (`names_nodup_of_fresh`). The `EEXIST` path of
`vfs_doadd` frees none of its allocations (`vfsDoadd_eexist`). `mount_volname_collides` puts these
together with two runs whose tables carry the same names and answer a lookup differently.
-/

namespace Os161

/-- A `struct fs` as the VFS layer sees it: an identity, and what `FSOP_GETVOLNAME` returns. -/
structure Fs where
  id : Nat
  volname : Option String
  deriving DecidableEq, Repr

/-- `struct knowndev`. `kd_vnode` is the block `dev_create_vnode` allocated. -/
structure KnownDev where
  name : String
  rawname : Option String
  device : Option Nat
  vnode : Nat
  fs : Option Fs
  deriving DecidableEq, Repr

namespace KnownDev

/-- The names an entry answers to: its name, its raw name, and the volume name of its file
system. -/
def names (kd : KnownDev) : List String :=
  kd.name :: (kd.rawname.toList ++ (kd.fs.bind Fs.volname).toList)

@[simp]
theorem mem_names {kd : KnownDev} {x : String} :
    x ∈ kd.names ↔ kd.name = x ∨ kd.rawname = some x ∨ kd.fs.bind Fs.volname = some x := by
  simp only [names, List.mem_cons, List.mem_append, Option.mem_toList]
  constructor
  · rintro (h | h | h) <;> simp [h]
  · rintro (h | h | h) <;> simp [h]

end KnownDev

theorem flatMap_set {α β : Type*} {l : List α} {i : Nat} {a : α} (b : α) (f : α → List β)
    (h : l[i]? = some a) :
    (l.set i b).flatMap f = (l.take i).flatMap f ++ (f b ++ (l.drop (i + 1)).flatMap f) := by
  have hi : i < l.length := (List.getElem?_eq_some_iff.1 h).1
  rw [List.set_eq_take_append_cons_drop, if_pos hi, List.flatMap_append, List.flatMap_cons]

theorem flatMap_eq_of_getElem? {α β : Type*} {l : List α} {i : Nat} {a : α} (f : α → List β)
    (h : l[i]? = some a) :
    l.flatMap f = (l.take i).flatMap f ++ (f a ++ (l.drop (i + 1)).flatMap f) := by
  obtain ⟨hi, rfl⟩ := List.getElem?_eq_some_iff.1 h
  rw [← flatMap_set _ f h, List.set_getElem_self]

/-- The state of `vfslist.c`: `knowndevs`, and the heap as `vfs_doadd` uses it: the blocks it
allocated and did not free, and the address the next `kmalloc` returns. -/
structure Vfs where
  knowndevs : List KnownDev
  live : List Nat
  next : Nat
  deriving DecidableEq, Repr

/-- What `vfs_getroot` hands back: the root of a file system (`FSOP_GETROOT`) or a device's
vnode. -/
inductive Root
  | fsRoot (fs : Fs)
  | vnode (v : Nat)
  deriving DecidableEq, Repr

/-- The allocation of `vfs_doadd` that fails: one of its four `kmalloc`s (the copy of the name,
the raw name, the vnode and the `knowndev`), or the growth of the array in `array_add`. -/
inductive AddFault
  | name
  | rawname
  | vnode
  | kd
  | arrayAdd
  deriving DecidableEq, Repr

namespace Vfs

/-- Every name the table answers to, entry by entry. -/
def names (s : Vfs) : List String := s.knowndevs.flatMap KnownDev.names

/-- `kmalloc` of one block: the next fresh address, or `NULL` when the allocation fails. -/
def kmalloc (s : Vfs) (ok : Bool) : Option Nat × Vfs :=
  if ok then (some s.next, { s with live := s.next :: s.live, next := s.next + 1 }) else (none, s)

/-- `if (p) kfree(p)`. -/
def kfree (s : Vfs) : Option Nat → Vfs
  | none => s
  | some b => { s with live := s.live.erase b }

@[simp]
theorem kmalloc_true (s : Vfs) :
    s.kmalloc true = (some s.next, { s with live := s.next :: s.live, next := s.next + 1 }) := rfl

@[simp]
theorem kmalloc_false (s : Vfs) : s.kmalloc false = (none, s) := rfl

@[simp]
theorem kfree_none (s : Vfs) : s.kfree none = s := rfl

@[simp]
theorem kfree_some (s : Vfs) (b : Nat) : s.kfree (some b) = { s with live := s.live.erase b } :=
  rfl

end Vfs

/-- `mkrawname`: the name of the raw device. -/
def mkrawname (name : String) : String := name ++ "raw"

/-- `samestring`: equal strings, neither of them `NULL`. -/
def samestring : Option String → Option String → Bool
  | some a, some b => a == b
  | _, _ => false

/-- `samestring3`. -/
def samestring3 (a b c d : Option String) : Bool :=
  samestring a b || samestring a c || samestring a d

theorem samestring_eq_true {a b : Option String} :
    samestring a b = true ↔ ∃ x, a = some x ∧ b = some x := by
  cases a <;> cases b <;> simp [samestring]
  exact eq_comm

theorem samestring3_eq_true {a b c d : Option String} :
    samestring3 a b c d = true ↔ ∃ x, a = some x ∧ (b = some x ∨ c = some x ∨ d = some x) := by
  simp only [samestring3, Bool.or_eq_true, samestring_eq_true]
  constructor
  · rintro ((⟨x, ha, hb⟩ | ⟨x, ha, hc⟩) | ⟨x, ha, hd⟩)
    exacts [⟨x, ha, .inl hb⟩, ⟨x, ha, .inr (.inl hc)⟩, ⟨x, ha, .inr (.inr hd)⟩]
  · rintro ⟨x, ha, hb | hc | hd⟩
    exacts [.inl (.inl ⟨x, ha, hb⟩), .inl (.inr ⟨x, ha, hc⟩), .inr ⟨x, ha, hd⟩]

/-- The body of `badnames`'s loop at one entry: whether it returns 1 there. -/
def KnownDev.clashes (kd : KnownDev) (n1 n2 n3 : Option String) : Bool :=
  (match kd.fs with
    | some fs => samestring3 fs.volname n1 n2 n3
    | none => false) ||
  samestring3 kd.rawname n1 n2 n3 || samestring3 (some kd.name) n1 n2 n3

theorem KnownDev.clashes_eq_true {kd : KnownDev} {n1 n2 n3 : Option String} :
    kd.clashes n1 n2 n3 = true ↔ ∃ x ∈ kd.names, n1 = some x ∨ n2 = some x ∨ n3 = some x := by
  obtain ⟨name, rawname, device, vnode, _ | fs⟩ := kd <;>
    simp only [clashes, Bool.or_eq_true, Bool.false_or, samestring3_eq_true, mem_names,
      Option.bind_none, Option.bind_some] <;> grind

/-- `badnames`: whether one of `n1`, `n2`, `n3` is already a name, raw name or volume name in the
table. -/
def badnames (knowndevs : List KnownDev) (n1 n2 n3 : Option String) : Bool :=
  knowndevs.any fun kd => kd.clashes n1 n2 n3

theorem badnames_eq_false {knowndevs : List KnownDev} {n1 n2 n3 : Option String} :
    badnames knowndevs n1 n2 n3 = false ↔
      ∀ x ∈ knowndevs.flatMap KnownDev.names, n1 ≠ some x ∧ n2 ≠ some x ∧ n3 ≠ some x := by
  simp only [badnames, List.any_eq_false, KnownDev.clashes_eq_true, List.mem_flatMap]
  constructor
  · rintro h x ⟨kd, hkd, hx⟩
    have := h kd hkd
    grind
  · rintro h kd hkd ⟨x, hx, hn⟩
    have := h x ⟨kd, hkd, hx⟩
    grind

/-- `vfs_doadd`. The allocations are made in order and the first that fails goes to `puke`,
which frees those made so far; `badnames` then decides, under the lock, whether the entry goes in.
The `EEXIST` path and a failed `array_add` return without freeing anything. -/
def vfsDoadd (s : Vfs) (dname : String) (mountable : Bool) (dev : Option Nat) (fs : Option Fs)
    (fault : Option AddFault) : Except Errno Unit × Vfs :=
  let puke (s : Vfs) (name rawname vnode : Option Nat) : Except Errno Unit × Vfs :=
    (.error .ENOMEM, ((s.kfree name).kfree rawname).kfree vnode)
  match s.kmalloc (decide (fault ≠ some .name)) with
  | (none, s) => puke s none none none
  | (some name, s) =>
    let r := if mountable then s.kmalloc (decide (fault ≠ some .rawname)) else (none, s)
    if mountable ∧ r.1 = none then puke r.2 (some name) none none
    else
      match r.2.kmalloc (decide (fault ≠ some .vnode)) with
      | (none, s) => puke s (some name) r.1 none
      | (some vnode, s) =>
        match s.kmalloc (decide (fault ≠ some .kd)) with
        | (none, s) => puke s (some name) r.1 (some vnode)
        | (some _, s) =>
          let rawname := if mountable then some (mkrawname dname) else none
          if badnames s.knowndevs (some dname) rawname (fs.bind Fs.volname) then (.error .EEXIST, s)
          else if fault = some .arrayAdd then (.error .ENOMEM, s)
          else (.ok (), { s with knowndevs := s.knowndevs ++ [⟨dname, rawname, dev, vnode, fs⟩] })

/-- Whether `fault` makes one of the `kmalloc`s of `vfs_doadd` fail; the raw name is asked for
only for a mountable device. -/
def AddFault.allocFails (mountable : Bool) : Option AddFault → Bool
  | some .name | some .vnode | some .kd => true
  | some .rawname => mountable
  | some .arrayAdd | none => false

section Doadd

variable {s : Vfs} {dname : String} {mountable : Bool} {dev : Option Nat} {fs : Option Fs}
  {fault : Option AddFault}

theorem vfsDoadd_of_allocs (h : AddFault.allocFails mountable fault = false) :
    vfsDoadd s dname mountable dev fs fault =
      let k := if mountable then 4 else 3
      let s' : Vfs :=
        { s with live := (List.range' s.next k).reverse ++ s.live, next := s.next + k }
      let rawname := if mountable then some (mkrawname dname) else none
      if badnames s.knowndevs (some dname) rawname (fs.bind Fs.volname) then (.error .EEXIST, s')
      else if fault = some .arrayAdd then (.error .ENOMEM, s')
      else (.ok (), { s' with knowndevs := s.knowndevs ++ [⟨dname, rawname, dev, s.next + k - 2, fs⟩] }) := by
  cases mountable <;> rcases fault with _ | _ | _ | _ | _ | _ <;>
    simp_all +decide [vfsDoadd, List.range']

theorem vfsDoadd_of_alloc_fails (h : AddFault.allocFails mountable fault = true) :
    (vfsDoadd s dname mountable dev fs fault).1 = .error .ENOMEM ∧
      (vfsDoadd s dname mountable dev fs fault).2.knowndevs = s.knowndevs ∧
      (vfsDoadd s dname mountable dev fs fault).2.live = s.live := by
  cases mountable <;> rcases fault with _ | _ | _ | _ | _ | _ <;>
    simp_all +decide [vfsDoadd, Nat.add_assoc]

/-- `vfs_doadd` either leaves the table as it was or appends its entry, and it appends it only when
none of the entry's names is in the table already. -/
theorem vfsDoadd_knowndevs :
    (vfsDoadd s dname mountable dev fs fault).2.knowndevs = s.knowndevs ∨
      ∃ vnode, (vfsDoadd s dname mountable dev fs fault).2.knowndevs =
          s.knowndevs ++ [⟨dname, if mountable then some (mkrawname dname) else none, dev, vnode, fs⟩] ∧
        badnames s.knowndevs (some dname) (if mountable then some (mkrawname dname) else none)
          (fs.bind Fs.volname) = false := by
  cases hf : AddFault.allocFails mountable fault
  · rw [vfsDoadd_of_allocs hf]
    dsimp only
    generalize (if mountable then some (mkrawname dname) else none) = rawname
    generalize (if mountable then 4 else 3) = k
    split_ifs with hb
    · exact .inl rfl
    · exact .inl rfl
    · exact .inr ⟨_, rfl, Bool.eq_false_iff.2 hb⟩
  · exact .inl (vfsDoadd_of_alloc_fails hf).2.1

/-- The `EEXIST` path leaves the table as it was and frees none of the blocks `vfs_doadd`
allocated: the copy of the name, the raw name of a mountable device, the vnode and the
`knowndev`. -/
theorem vfsDoadd_eexist (h : (vfsDoadd s dname mountable dev fs fault).1 = .error .EEXIST) :
    (vfsDoadd s dname mountable dev fs fault).2 =
      { s with live := (List.range' s.next (if mountable then 4 else 3)).reverse ++ s.live,
               next := s.next + if mountable then 4 else 3 } := by
  cases hf : AddFault.allocFails mountable fault
  · rw [vfsDoadd_of_allocs hf] at h ⊢
    dsimp only at h ⊢
    generalize (if mountable then some (mkrawname dname) else none) = rawname at h ⊢
    generalize (if mountable then 4 else 3) = k at h ⊢
    split_ifs at h ⊢ <;> simp_all
  · rw [(vfsDoadd_of_alloc_fails hf).1] at h
    cases h

end Doadd

/-- `vfs_adddev`. -/
def vfsAdddev (s : Vfs) (devname : String) (dev : Nat) (mountable : Bool)
    (fault : Option AddFault) : Except Errno Unit × Vfs :=
  vfsDoadd s devname mountable (some dev) none fault

/-- `vfs_addfs`. -/
def vfsAddfs (s : Vfs) (devname : String) (fs : Fs) (fault : Option AddFault) :
    Except Errno Unit × Vfs :=
  vfsDoadd s devname false none (some fs) fault

/-- `findmount`: the index of the first mountable entry named `devname`. -/
def findmount (knowndevs : List KnownDev) (devname : String) : Option Nat :=
  knowndevs.findIdx? fun kd => kd.rawname.isSome && kd.name == devname

/-- `vfs_mount`, with the mount function's answer for each device. `none` is a failed `assert`. -/
def vfsMount (s : Vfs) (devname : String) (mountfunc : Nat → Except Errno Fs) :
    Option (Except Errno Unit × Vfs) :=
  match findmount s.knowndevs devname with
  | none => some (.error .ENODEV, s)
  | some i =>
    match s.knowndevs[i]? with
    | none => none
    | some kd =>
      if kd.fs.isSome then some (.error .EBUSY, s)
      else
        match kd.device with
        | none => none
        | some dev =>
          match mountfunc dev with
          | .error e => some (.error e, s)
          | .ok fs => some (.ok (), { s with knowndevs := s.knowndevs.set i { kd with fs := some fs } })

/-- `vfs_unmount`, with what `FSOP_SYNC` and `FSOP_UNMOUNT` return. -/
def vfsUnmount (s : Vfs) (devname : String) (sync unmount : Except Errno Unit) :
    Option (Except Errno Unit × Vfs) :=
  match findmount s.knowndevs devname with
  | none => some (.error .ENODEV, s)
  | some i =>
    match s.knowndevs[i]? with
    | none => none
    | some kd =>
      match kd.fs with
      | none => some (.error .EINVAL, s)
      | some _ =>
        if kd.device.isNone then none
        else
          match sync with
          | .error e => some (.error e, s)
          | .ok () =>
            match unmount with
            | .error e => some (.error e, s)
            | .ok () => some (.ok (), { s with knowndevs := s.knowndevs.set i { kd with fs := none } })

theorem findmount_eq_some {knowndevs : List KnownDev} {devname : String} {i : Nat}
    (h : findmount knowndevs devname = some i) :
    ∃ kd, knowndevs[i]? = some kd ∧ kd.rawname.isSome ∧ kd.name = devname := by
  obtain ⟨hi, hp, -⟩ := List.findIdx?_eq_some_iff_getElem.1 h
  simp only [Bool.and_eq_true, beq_iff_eq] at hp
  exact ⟨knowndevs[i], List.getElem?_eq_getElem hi, hp⟩

section MountUnmount

variable {s s' : Vfs} {devname : String} {r : Except Errno Unit}

theorem vfsMount_eq_some {f : Nat → Except Errno Fs} (h : vfsMount s devname f = some (r, s')) :
    s' = s ∨ ∃ i kd dev fs, s.knowndevs[i]? = some kd ∧ kd.name = devname ∧ kd.rawname.isSome ∧
      kd.fs = none ∧ kd.device = some dev ∧ f dev = .ok fs ∧
      s' = { s with knowndevs := s.knowndevs.set i { kd with fs := some fs } } := by
  unfold vfsMount at h
  split at h
  · cases h; exact .inl rfl
  · rename_i i hi
    obtain ⟨kd, hkd, hraw, hname⟩ := findmount_eq_some hi
    rw [hkd] at h
    simp only at h
    split_ifs at h with hfs
    · cases h; exact .inl rfl
    · split at h
      · cases h
      · rename_i dev hdev
        split at h
        · cases h; exact .inl rfl
        · rename_i fs hf
          cases h
          exact .inr ⟨i, kd, dev, fs, hkd, hname, hraw, by simpa using hfs, hdev, hf, rfl⟩

theorem vfsUnmount_eq_some {sync unmount : Except Errno Unit}
    (h : vfsUnmount s devname sync unmount = some (r, s')) :
    s' = s ∨ ∃ i kd, s.knowndevs[i]? = some kd ∧
      s' = { s with knowndevs := s.knowndevs.set i { kd with fs := none } } := by
  unfold vfsUnmount at h
  split at h
  · cases h; exact .inl rfl
  · rename_i i _
    split at h
    · cases h
    · rename_i kd hkd
      split at h
      · cases h; exact .inl rfl
      · split_ifs at h
        split at h
        · cases h; exact .inl rfl
        · split at h
          · cases h; exact .inl rfl
          · cases h
            exact .inr ⟨i, kd, hkd, rfl⟩

end MountUnmount

/-- The loop of `vfs_getroot` from entry `kd` on. `none` is a failed `assert`. -/
def vfsGetrootLoop (devname : String) : List KnownDev → Option (Except Errno Root)
  | [] => some (.error .ENODEV)
  | kd :: kds =>
    -- the tests of the name and the raw name, which an entry reaches when the tests of a mounted
    -- file system or an unmounted mountable device let it through
    let byName : Option (Except Errno Root) :=
      if kd.name = devname then
        if kd.fs.isNone ∧ kd.rawname.isNone ∧ kd.device.isSome then some (.ok (.vnode kd.vnode))
        else none
      else if kd.rawname = some devname then
        if kd.device.isSome then some (.ok (.vnode kd.vnode)) else none
      else vfsGetrootLoop devname kds
    match kd.fs with
    | some fs =>
      if kd.name = devname ∨ fs.volname = some devname then some (.ok (.fsRoot fs)) else byName
    | none => if kd.rawname.isSome ∧ kd.name = devname then some (.error Errno.ENXIO) else byName

/-- `vfs_getroot`. -/
def vfsGetroot (s : Vfs) (devname : String) : Option (Except Errno Root) :=
  vfsGetrootLoop devname s.knowndevs

theorem vfsGetrootLoop_cons_of_not_mem {devname : String} {kd : KnownDev} {kds : List KnownDev}
    (h : devname ∉ kd.names) : vfsGetrootLoop devname (kd :: kds) = vfsGetrootLoop devname kds := by
  obtain ⟨name, rawname, device, vnode, _ | fs⟩ := kd <;>
    simp_all [vfsGetrootLoop]

theorem vfsGetrootLoop_cons_of_mem {devname : String} {kd : KnownDev} {kds : List KnownDev}
    (h : devname ∈ kd.names) : vfsGetrootLoop devname (kd :: kds) = vfsGetrootLoop devname [kd] := by
  obtain ⟨name, rawname, device, vnode, _ | fs⟩ := kd <;>
    simp only [KnownDev.mem_names, Option.bind_none, Option.bind_some] at h <;>
    simp only [vfsGetrootLoop] <;> grind

/-- `vfs_getroot` answers from the first entry that answers to the name. -/
theorem vfsGetroot_eq_find (s : Vfs) (devname : String) :
    vfsGetroot s devname =
      vfsGetrootLoop devname (s.knowndevs.find? fun kd => devname ∈ kd.names).toList := by
  unfold vfsGetroot
  induction s.knowndevs with
  | nil => rfl
  | cons kd kds ih =>
    by_cases h : devname ∈ kd.names
    · rw [vfsGetrootLoop_cons_of_mem h, List.find?_cons_of_pos (by simpa using h)]
      rfl
    · rw [vfsGetrootLoop_cons_of_not_mem h, List.find?_cons_of_neg (by simpa using h), ih]

/-- With no name carried twice, the answer of `vfs_getroot` does not depend on the order of the
table. -/
theorem vfsGetroot_perm {s t : Vfs} (hn : s.names.Nodup) (hp : s.knowndevs.Perm t.knowndevs)
    (devname : String) : vfsGetroot s devname = vfsGetroot t devname := by
  rw [vfsGetroot_eq_find, vfsGetroot_eq_find, List.find?_eq_find?_of_perm hp]
  -- two entries that answer to the name are one: their names are disjoint otherwise
  rintro kd ⟨hkd, hk⟩ kd' ⟨hkd', hk'⟩
  by_contra hne
  have : Std.Symm (Function.onFun List.Disjoint KnownDev.names) := ⟨fun _ _ h => h.symm⟩
  have hd := (List.nodup_flatMap.1 hn).2.forall hkd hkd' hne
  exact hd (by simpa using hk) (by simpa using hk')

/-- `vfs_bootstrap`: an empty table and heap, then `devnull_create`'s `vfs_adddev("null", dev, 0)`,
which panics if it fails. -/
def vfsBootstrap (dev : Nat) : Option Vfs :=
  match vfsAdddev ⟨[], [], 0⟩ "null" dev false none with
  | (.ok (), s) => some s
  | (.error _, _) => none

/-- A call into `vfslist.c`, with the choices its callee and the allocator make. -/
inductive VfsCall
  | adddev (devname : String) (dev : Nat) (mountable : Bool) (fault : Option AddFault)
  | addfs (devname : String) (fs : Fs) (fault : Option AddFault)
  | mount (devname : String) (mountfunc : Nat → Except Errno Fs)
  | unmount (devname : String) (sync unmount : Except Errno Unit)

namespace Vfs

/-- One call, with what it returns dropped. -/
def call (s : Vfs) : VfsCall → Option Vfs
  | .adddev n dev m fault => some (vfsAdddev s n dev m fault).2
  | .addfs n fs fault => some (vfsAddfs s n fs fault).2
  | .mount n f => (vfsMount s n f).map Prod.snd
  | .unmount n sync unmount => (vfsUnmount s n sync unmount).map Prod.snd

/-- The states reachable from `vfs_bootstrap` by calls. -/
def Reachable (s : Vfs) : Prop :=
  Sys.Reach (fun s => ∃ dev, vfsBootstrap dev = some s) (fun c s s' => s.call c = some s') s

theorem reachable_of_exec {dev : Nat} {s₀ s : Vfs} {cs : List VfsCall}
    (h₀ : vfsBootstrap dev = some s₀) (h : Sys.exec (fun c s => s.call c) s₀ cs = some s) :
    s.Reachable :=
  Sys.Reach.of_exec (Sys.Reach.init ⟨dev, h₀⟩) h

/-! ### The names in the table -/

theorem names_eq_of_knowndevs {s t : Vfs} (h : t.knowndevs = s.knowndevs) : t.names = s.names := by
  rw [names, names, h]

theorem names_set_perm {s : Vfs} {i : Nat} {kd : KnownDev} (kd' : KnownDev)
    (h : s.knowndevs[i]? = some kd) :
    (({ s with knowndevs := s.knowndevs.set i kd' }).names ++ kd.names).Perm
      (s.names ++ kd'.names) := by
  simp only [names]
  rw [flatMap_set kd' _ h, flatMap_eq_of_getElem? _ h, List.perm_iff_count]
  intro x
  simp only [List.count_append]
  omega

theorem names_set_sublist {s : Vfs} {i : Nat} {kd : KnownDev} {kd' : KnownDev}
    (h : s.knowndevs[i]? = some kd) (hk : kd'.names.Sublist kd.names) :
    ({ s with knowndevs := s.knowndevs.set i kd' }).names.Sublist s.names := by
  simp only [names]
  rw [flatMap_set kd' _ h, flatMap_eq_of_getElem? _ h]
  exact (hk.append_right _).append_left _

/-- A mount adds to the names the volume name of the file system it mounts, whatever it is. -/
theorem vfsMount_names {s s' : Vfs} {devname : String} {f : Nat → Except Errno Fs}
    {r : Except Errno Unit} (h : vfsMount s devname f = some (r, s')) :
    s'.names = s.names ∨
      ∃ dev fs, f dev = .ok fs ∧ s'.names.Perm (s.names ++ fs.volname.toList) := by
  rcases vfsMount_eq_some h with rfl | ⟨i, kd, dev, fs, hkd, -, -, hfs, -, hf, rfl⟩
  · exact .inl rfl
  · refine .inr ⟨dev, fs, hf, ?_⟩
    have hp := names_set_perm { kd with fs := some fs } hkd
    rw [List.perm_iff_count] at hp ⊢
    intro x
    have := hp x
    simp only [KnownDev.names, hfs, Option.bind_none, Option.bind_some, List.count_append,
      List.count_cons, List.count_nil, Option.toList_none] at this ⊢
    omega

theorem vfsUnmount_names {s s' : Vfs} {devname : String} {sync unmount r : Except Errno Unit}
    (h : vfsUnmount s devname sync unmount = some (r, s')) : s'.names.Sublist s.names := by
  rcases vfsUnmount_eq_some h with rfl | ⟨i, kd, hkd, rfl⟩
  · exact List.Sublist.refl _
  · refine names_set_sublist hkd ?_
    simp only [KnownDev.names, Option.bind_none, Option.toList_none, List.append_nil]
    exact (List.sublist_append_left _ _).cons_cons _

theorem vfsDoadd_names_nodup {s : Vfs} {dname : String} {mountable : Bool} {dev : Option Nat}
    {fs : Option Fs} {fault : Option AddFault} (hn : s.names.Nodup)
    (hk : (KnownDev.names ⟨dname, if mountable then some (mkrawname dname) else none, dev, 0, fs⟩).Nodup) :
    (vfsDoadd s dname mountable dev fs fault).2.names.Nodup := by
  rcases @vfsDoadd_knowndevs s dname mountable dev fs fault with h | ⟨vnode, h, hb⟩
  · rwa [names_eq_of_knowndevs h]
  · rw [names, h, List.flatMap_append, List.flatMap_singleton, List.nodup_append]
    refine ⟨hn, hk, ?_⟩
    intro x hx y hy hxy
    subst hxy
    have := (badnames_eq_false.1 hb) x hx
    simp only [KnownDev.mem_names] at hy
    grind

theorem mkrawname_ne (name : String) : mkrawname name ≠ name := by
  intro h
  have := congrArg String.length h
  simp [mkrawname] at this

/-- The check `vfs_mount` does not make, and the one `vfs_addfs` does not make between the names of
its own entry: that a call brings in no name the table answers to already. -/
def VfsCall.Fresh (s : Vfs) : VfsCall → Prop
  | .mount _ f => ∀ dev fs x, f dev = .ok fs → fs.volname = some x → x ∉ s.names
  | .addfs n fs _ => fs.volname ≠ some n
  | .adddev .. | .unmount .. => True

/-- With those two checks made, no name is carried twice in any state a run reaches. -/
theorem names_nodup_of_fresh {s : Vfs}
    (h : Sys.Reach (fun s => ∃ dev, vfsBootstrap dev = some s)
      (fun c s s' => s.call c = some s' ∧ VfsCall.Fresh s c) s) : s.names.Nodup := by
  refine @Sys.Reach.induct_inv Vfs VfsCall _ _ (fun s => s.names.Nodup) ?_ ?_ s h
  · rintro s ⟨dev, hs⟩
    simp only [vfsBootstrap, vfsAdddev, vfsDoadd_of_allocs (rfl : AddFault.allocFails false none = false)] at hs
    simp [badnames] at hs
    subst hs
    simp [names, KnownDev.names]
  · rintro c s s' hn ⟨hc, hfresh⟩
    cases c with
    | adddev n dev m fault =>
      cases hc
      refine vfsDoadd_names_nodup hn ?_
      cases m <;> simp [KnownDev.names, Ne.symm (mkrawname_ne n)]
    | addfs n fs fault =>
      cases hc
      refine vfsDoadd_names_nodup hn ?_
      cases hv : fs.volname <;> simp_all [VfsCall.Fresh, KnownDev.names, eq_comm]
    | mount n f =>
      obtain ⟨⟨r, s''⟩, hm, rfl⟩ := Option.map_eq_some_iff.1 hc
      rcases vfsMount_names hm with he | ⟨dev, fs, hf, hp⟩
      · rwa [he]
      · rw [hp.nodup_iff, List.nodup_append]
        refine ⟨hn, by cases fs.volname <;> simp, ?_⟩
        rintro x hx y hy rfl
        exact hfresh dev fs x hf (Option.mem_toList.1 hy) hx
    | unmount n sync unmount =>
      obtain ⟨⟨r, s''⟩, hm, rfl⟩ := Option.map_eq_some_iff.1 hc
      exact hn.sublist (vfsUnmount_names hm)

end Vfs

/-- The disks `lhd_attach` adds, in the order given, then `sfs_mount("lhd0")` of a volume whose
superblock names it `lhd1raw`. -/
def lhdRun (disks : List (String × Nat)) : List VfsCall :=
  disks.map (fun d => .adddev d.1 d.2 true none) ++ [.mount "lhd0" fun _ => .ok ⟨0, some "lhd1raw"⟩]

/-- The state `lhdRun` leads to from `vfs_bootstrap`. -/
def lhdState (disks : List (String × Nat)) : Option Vfs :=
  (vfsBootstrap 0).bind fun s => Sys.exec (fun c s => s.call c) s (lhdRun disks)

theorem lhdState_reachable {disks : List (String × Nat)} {s : Vfs} (h : lhdState disks = some s) :
    s.Reachable := by
  obtain ⟨s₀, h₀, h⟩ := Option.bind_eq_some_iff.1 h
  exact Vfs.reachable_of_exec h₀ h

/-- Two runs of `lhd_attach` and `sfs_mount` that differ only in the order of the disks: in the
first, the volume name `lhd1raw` that `vfs_mount` brings in unchecked is carried twice and
`vfs_getroot` answers with the file system; in the second, the same names answer with the raw
device. The `EEXIST` path of `vfs_doadd` frees none of its blocks. With the checks `vfs_mount` and
`vfs_addfs` do not make, no name would be carried twice, and `vfs_getroot` would not depend on
the order. -/
theorem mount_volname_collides :
    (∃ s₁ s₂ : Vfs, s₁.Reachable ∧ s₂.Reachable ∧ ¬s₁.names.Nodup ∧
      (s₁.knowndevs.map KnownDev.names).Perm (s₂.knowndevs.map KnownDev.names) ∧
      vfsGetroot s₁ "lhd1raw" = some (.ok (.fsRoot ⟨0, some "lhd1raw"⟩)) ∧
      ∃ kd ∈ s₂.knowndevs, kd.name = "lhd1" ∧ vfsGetroot s₂ "lhd1raw" = some (.ok (.vnode kd.vnode))) ∧
    (∀ (s : Vfs) dname mountable dev fs fault,
      (vfsDoadd s dname mountable dev fs fault).1 = .error .EEXIST →
        (vfsDoadd s dname mountable dev fs fault).2 =
          { s with live := (List.range' s.next (if mountable then 4 else 3)).reverse ++ s.live,
                   next := s.next + if mountable then 4 else 3 }) ∧
    (∀ s : Vfs, Sys.Reach (fun s => ∃ dev, vfsBootstrap dev = some s)
        (fun c s s' => s.call c = some s' ∧ Vfs.VfsCall.Fresh s c) s → s.names.Nodup) ∧
    (∀ s t : Vfs, s.names.Nodup → s.knowndevs.Perm t.knowndevs →
      ∀ devname, vfsGetroot s devname = vfsGetroot t devname) := by
  refine ⟨?_, fun s _ _ _ _ _ h => vfsDoadd_eexist h, fun s h => Vfs.names_nodup_of_fresh h,
    fun s t hn hp devname => vfsGetroot_perm hn hp devname⟩
  obtain ⟨s₁, h₁⟩ := Option.isSome_iff_exists.1 (by decide : (lhdState [("lhd0", 1), ("lhd1", 2)]).isSome)
  obtain ⟨s₂, h₂⟩ := Option.isSome_iff_exists.1 (by decide : (lhdState [("lhd1", 2), ("lhd0", 1)]).isSome)
  -- lhd0 first: the volume name of the file system on lhd0 shadows lhd1's raw device
  have k₁ : (lhdState [("lhd0", 1), ("lhd1", 2)]).all (fun s => decide (¬s.names.Nodup ∧
      vfsGetroot s "lhd1raw" = some (.ok (.fsRoot ⟨0, some "lhd1raw"⟩)))) = true := by decide
  -- lhd1 first: the same names in the other order, and the raw device is found
  have k₂ : (lhdState [("lhd1", 2), ("lhd0", 1)]).all (fun s₂ : Vfs =>
      (lhdState [("lhd0", 1), ("lhd1", 2)]).all (fun s₁ =>
        (s₁.knowndevs.map KnownDev.names).isPerm (s₂.knowndevs.map KnownDev.names)) &&
      decide (∃ kd ∈ s₂.knowndevs, kd.name = "lhd1" ∧
        vfsGetroot s₂ "lhd1raw" = some (.ok (.vnode kd.vnode)))) = true := by
    decide
  rw [h₁] at k₁ k₂
  rw [h₂] at k₂
  simp only [Option.all_some, decide_eq_true_eq, Bool.and_eq_true, List.isPerm_iff] at k₁ k₂
  exact ⟨s₁, s₂, lhdState_reachable h₁, lhdState_reachable h₂, k₁.1, k₂.1, k₁.2, k₂.2⟩

end Os161
