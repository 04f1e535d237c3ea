import Os161.Fs.Sfs.Io

/-!
# SFS: the directory

A directory is a file of 64-byte `struct sfs_dir` entries, read and written one slot at a time
through `sfs_io`. An entry whose `sfd_ino` is `SFS_NOINO` is free. `sfs_dir_findname` scans every
slot: it finds the name, which may appear only once, and remembers the last free slot it passed,
where `sfs_dir_link` puts a new entry when there is one.
-/

namespace Os161

open ByteMem

/-! ### `struct sfs_dir` in bytes -/

namespace Sfd

/-- `sfd_ino`. -/
def ino (sd : Buf) : Nat := loadWord sd 0

/-- `sfd_name` as `strcmp` reads it once its last byte is set to NUL. -/
def name (sd : Buf) : List UInt8 := (load sd 4 (sfsNamelen - 1)).takeWhile (· ≠ 0)

/-- A cleared entry with `sfd_ino = ino` and the name `strcpy` copies in. -/
def mk (ino : Nat) (name : CStr) : Buf :=
  store (store (fun _ => 0) 0 (wordBytes ino)) 4 (name.bytes ++ [0])

end Sfd

/-! ### Slots -/

/-- `sfs_readdir(sv, &sd, slot)`: the entry in `slot`; a short read is a panic. -/
def sfsReaddir (ino slot : Nat) : SfsM Buf := do
  let ((), u) ← Run.withSnd (mkKuio (fun _ => 0) sfsDirSize (slot * sfsDirSize) .read) (sfsIo ino)
  if u.resid > 0 then Run.fail
  pure u.mem

/-- `sfs_writedir(sv, &sd, slot)`: the entry `sd` into `slot`; a short write is a panic. -/
def sfsWritedir (ino : Nat) (sd : Buf) (slot : Nat) : SfsM Unit := do
  let ((), u) ← Run.withSnd (mkKuio sd sfsDirSize (slot * sfsDirSize) .write) (sfsIo ino)
  if u.resid > 0 then Run.fail

/-- `sfs_dir_nentries`: the slots of the directory, free or not. -/
def sfsDirNentries (ino : Nat) : SfsM Nat := do
  let sv ← Sfs.vnodeOf ino
  Run.assert (Sfi.type sv.i = sfsTypeDir)
  if Sfi.size sv.i % sfsDirSize ≠ 0 then Run.fail
  pure (Sfi.size sv.i / sfsDirSize)

/-! ### Names -/

/-- What `sfs_dir_findname` hands back through its pointers: the inode and slot of the name, and
the last free slot. -/
structure Findname where
  found : Option (Nat × Nat)
  emptyslot : Option Nat

/-- `sfs_dir_findname`'s loop from slot `i`, with `k` slots to go. -/
def sfsDirFindnameLoop (ino : Nat) (name : CStr) : Nat → Nat → Findname → SfsM Findname
  | _, 0, r => pure r
  | i, k + 1, r => do
    let tsd ← sfsReaddir ino i
    if Sfd.ino tsd = sfsNoino then
      sfsDirFindnameLoop ino name (i + 1) k { r with emptyslot := some i }
    else if Sfd.name tsd = name.bytes then
      -- each name may appear only once
      Run.assert (r.found = none)
      sfsDirFindnameLoop ino name (i + 1) k { r with found := some (Sfd.ino tsd, i) }
    else sfsDirFindnameLoop ino name (i + 1) k r

/-- `sfs_dir_findname(sv, name, &ino, &slot, &emptyslot)`; `found` is `none` where it returns
`ENOENT`. -/
def sfsDirFindname (ino : Nat) (name : CStr) : SfsM Findname := do
  let n ← sfsDirNentries ino
  sfsDirFindnameLoop ino name 0 n ⟨none, none⟩

/-- `sfs_dir_link(sv, name, ino, &slot)`: a new entry for `target`, in the last free slot or at
the end; the slot. -/
def sfsDirLink (ino : Nat) (name : CStr) (target : Nat) : SfsM Nat := do
  let r ← sfsDirFindname ino name
  if r.found.isSome then Run.throw .EEXIST
  else if name.length + 1 > sfsNamelen then Run.throw .ENAMETOOLONG
  else
    let slot ← match r.emptyslot with
      | some e => pure e
      | none => sfsDirNentries ino
    sfsWritedir ino (Sfd.mk target name) slot
    pure slot

/-- `sfs_dir_unlink(sv, slot)`: a cleared entry with `sfd_ino = SFS_NOINO` into `slot`. -/
def sfsDirUnlink (ino slot : Nat) : SfsM Unit :=
  sfsWritedir ino (store (fun _ => 0) 0 (wordBytes sfsNoino)) slot

end Os161
