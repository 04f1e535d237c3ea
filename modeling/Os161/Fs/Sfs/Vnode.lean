import Os161.Fs.Sfs.Dir

/-!
# SFS: vnodes and the operations on the directory

A loaded inode is an `SfsVnode` in the volume's table, found by its inode number, with the
reference count of its `struct vnode`. `sfs_loadvnode` hands out one more reference to a loaded
inode, or loads it; `vnode_decref` gives one back, and the last reclaims the vnode: a file with no
links left is truncated to nothing and its inode block freed.

The directory operations (`sfs_creat`, `sfs_link`, `sfs_remove`, `sfs_rename`) change the root
directory's entries and the link counts of the files they name. `sfs_rename` links the new name
before it unlinks the old one, and undoes the link when the unlink fails.

A vnode's operations are those of its type, `sfs_fileops` or `sfs_dirops`, which `sfs_loadvnode`
picks once; every `VOP_` call first checks that the vnode has a reference.
-/

namespace Os161

open ByteMem

/-! ### Loading and reclaiming -/

/-- `sfs_loadvnode`'s search of the table: every vnode passed must sit in a block in use; the one
of inode `ino` gets a reference (`VOP_INCREF`). Whether it was there. -/
def sfsLoadvnodeScan (ino forcetype : Nat) : List SfsVnode → SfsM Bool
  | [] => pure false
  | sv :: svs => do
    if !(← sfsBused sv.ino) then Run.fail
    if sv.ino = ino then
      Run.assert (forcetype = sfsTypeInval)
      Sfs.modifyVnode ino fun v => { v with refcount := v.refcount + 1 }
      pure true
    else sfsLoadvnodeScan ino forcetype svs

/-- `sfs_loadvnode(sfs, ino, forcetype, &sv)`: a reference to the vnode of inode `ino`, loaded from
its block when it is not in the table. A new object's zeroed inode gets the type `forcetype`.
The `kmalloc`, the `lock_create` of `VOP_INIT` and the `array_add` can each fail. -/
def sfsLoadvnode (ino forcetype : Nat) : SfsM Unit := do
  let s ← Run.get
  if ← sfsLoadvnodeScan ino forcetype s.vnodes then pure ()
  else if !(← Sfs.lucky) then Run.throw .ENOMEM
  else
    if !(← sfsBused ino) then Run.fail
    let i ← sfsRblock (fun _ => 0) ino
    let i ← if forcetype ≠ sfsTypeInval then do
        Run.assert (Sfi.type i = sfsTypeInval)
        pure (Sfi.setType i forcetype)
      else pure i
    if Sfi.type i ≠ sfsTypeFile ∧ Sfi.type i ≠ sfsTypeDir then Run.fail
    if !(← Sfs.lucky) then Run.throw .ENOMEM
    else if !(← Sfs.lucky) then Run.throw .ENOMEM
    else
      Run.modify fun s =>
        { s with vnodes := s.vnodes ++ [⟨ino, i, forcetype ≠ sfsTypeInval, 1⟩] }

/-- `vnode_check`, made before every `VOP_` call but `VOP_RECLAIM`: the vnode has a reference. -/
def vnodeCheck (ino : Nat) : SfsM SfsVnode := do
  let sv ← Sfs.vnodeOf ino
  if sv.refcount = 0 then Run.fail
  pure sv

/-- `VOP_TRUNCATE`: `sfs_truncate` for a file, `EISDIR` for the directory. -/
def vopTruncate (ino len : Nat) : SfsM Unit := do
  let sv ← vnodeCheck ino
  if Sfi.type sv.i = sfsTypeFile then sfsTruncate ino len else Run.throw .EISDIR

/-- `sfs_reclaim`, called by `vnode_decref` for the last reference. When someone took a reference
since, it gives back the one it was handed and says `EBUSY`. Otherwise a file with no links is
truncated, the inode written back, its block freed when it has no links, and the vnode taken out
of the table. -/
def sfsReclaim (ino : Nat) : SfsM Unit := do
  let sv ← Sfs.vnodeOf ino
  if sv.refcount ≠ 1 then
    Run.assert (sv.refcount > 1)
    Sfs.modifyVnode ino fun v => { v with refcount := v.refcount - 1 }
    Run.throw .EBUSY
  else
    if Sfi.linkcount sv.i = 0 then vopTruncate ino 0
    sfsSyncInode ino
    let sv ← Sfs.vnodeOf ino
    if Sfi.linkcount sv.i = 0 then sfsBfree ino
    let s ← Run.get
    match s.vnodes.findIdx? (·.ino == ino) with
    | none => Run.fail
    | some ix => Run.set { s with vnodes := s.vnodes.eraseIdx ix }

/-- `vnode_decref` (`VOP_DECREF`): one reference fewer; the last one reclaims the vnode, whose
error is only printed. -/
def vnodeDecref (ino : Nat) : SfsM Unit := do
  let sv ← Sfs.vnodeOf ino
  Run.assert (sv.refcount > 0)
  if sv.refcount > 1 then Sfs.modifyVnode ino fun v => { v with refcount := v.refcount - 1 }
  else
    let _ ← Run.attempt (sfsReclaim ino)
    pure ()

/-- `vnode_incref` (`VOP_INCREF`). -/
def vnodeIncref (ino : Nat) : SfsM Unit := do
  let _ ← Sfs.vnodeOf ino
  Sfs.modifyVnode ino fun v => { v with refcount := v.refcount + 1 }

/-- `sfs_makeobj(sfs, type, &sv)`: an inode in a new block, loaded with its type; its number. -/
def sfsMakeobj (type : Nat) : SfsM Nat := do
  let ino ← sfsBalloc
  sfsLoadvnode ino type
  pure ino

/-- `sfs_lookonce(sv, name, &ret, &slot)`: a reference to the file named `name`, and its slot. -/
def sfsLookonce (dir : Nat) (name : CStr) : SfsM (Nat × Nat) := do
  let r ← sfsDirFindname dir name
  match r.found with
  | none => Run.throw .ENOENT
  | some (ino, slot) =>
    sfsLoadvnode ino sfsTypeInval
    let sv ← Sfs.vnodeOf ino
    if Sfi.linkcount sv.i = 0 then Run.fail
    pure (ino, slot)

/-! ### The directory operations -/

/-- The link count of inode `ino` set to `f` of itself; the inode is marked dirty when `dirty` is. -/
def setLinks (ino : Nat) (f : Nat → Nat) (dirty : Bool) : SfsM Unit :=
  Sfs.modifyVnode ino fun v =>
    { v with i := Sfi.setLinkcount v.i (f (Sfi.linkcount v.i)), dirty := v.dirty || dirty }

/-- `sfs_creat(v, name, excl, &ret)`: a reference to the file `name`, made and linked in when it
is not there. When the link fails, the new object's reference is given back, which reclaims
it. -/
def sfsCreat (dir : Nat) (name : CStr) (excl : Bool) : SfsM Nat := do
  let r ← sfsDirFindname dir name
  match r.found with
  | some (ino, _) =>
    if excl then Run.throw .EEXIST
    else
      sfsLoadvnode ino sfsTypeInval
      pure ino
  | none =>
    let ino ← sfsMakeobj sfsTypeFile
    match ← Run.attempt (sfsDirLink dir name ino) with
    | .error e =>
      vnodeDecref ino
      Run.throw e
    | .ok _ =>
      setLinks ino (· + 1) true
      pure ino

/-- `sfs_link(dir, name, file)`: one more name for `file`. -/
def sfsLink (dir : Nat) (name : CStr) (file : Nat) : SfsM Unit := do
  let _ ← sfsDirLink dir name file
  setLinks file (· + 1) true

/-- `sfs_remove(dir, name)`: the entry of `name` cleared and its file's link count lowered; the
reference the lookup took is given back either way. -/
def sfsRemove (dir : Nat) (name : CStr) : SfsM Unit := do
  let (victim, slot) ← sfsLookonce dir name
  let r ← Run.attempt (sfsDirUnlink dir slot)
  match r with
  | .ok () =>
    let sv ← Sfs.vnodeOf victim
    Run.assert (Sfi.linkcount sv.i > 0)
    setLinks victim (· - 1) true
  | .error _ => pure ()
  vnodeDecref victim
  Run.ofExcept r

/-- `sfs_rename(d1, n1, d1, n2)` on the root directory: the file is linked as `n2`, then `n1` is
unlinked. When the unlink fails, the new link is undone (`puke_harder`), and a failure there is a
panic. -/
def sfsRename (dir : Nat) (n1 n2 : CStr) : SfsM Unit := do
  Run.assert (dir = sfsRootLocation)
  let (g1, slot1) ← sfsLookonce dir n1
  let sv ← Sfs.vnodeOf g1
  Run.assert (Sfi.type sv.i = sfsTypeFile)
  match ← Run.attempt (sfsDirLink dir n2 g1) with
  | .error e =>
    vnodeDecref g1
    Run.throw e
  | .ok slot2 =>
    setLinks g1 (· + 1) true
    match ← Run.attempt (sfsDirUnlink dir slot1) with
    | .error e =>
      match ← Run.attempt (sfsDirUnlink dir slot2) with
      | .error _ => Run.fail
      | .ok () =>
        setLinks g1 (· - 1) false
        vnodeDecref g1
        Run.throw e
    | .ok () =>
      let sv ← Sfs.vnodeOf g1
      Run.assert (Sfi.linkcount sv.i > 0)
      setLinks g1 (· - 1) true
      vnodeDecref g1

/-- `sfs_lookup(v, path, &ret)`: a reference to the file `path` of the directory. -/
def sfsLookup (dir : Nat) (path : CStr) : SfsM Nat := do
  let sv ← Sfs.vnodeOf dir
  if Sfi.type sv.i ≠ sfsTypeDir then Run.throw .ENOTDIR
  else
    let (ino, _) ← sfsLookonce dir path
    pure ino

/-- `sfs_lookparent(v, path, &ret, buf, buflen)`: a reference to the directory itself, and the
path copied into a buffer of `buflen` bytes. -/
def sfsLookparent (dir : Nat) (path : CStr) (buflen : Nat) : SfsM CStr := do
  let sv ← Sfs.vnodeOf dir
  if Sfi.type sv.i ≠ sfsTypeDir then Run.throw .ENOTDIR
  else if path.length + 1 > buflen then Run.throw .ENAMETOOLONG
  else
    vnodeIncref dir
    pure path

/-- `sfs_fsync`, which `sfs_close` also is. -/
def sfsFsync (ino : Nat) : SfsM Unit := sfsSyncInode ino

/-- `S_IFREG`. -/
def sIfreg : Nat := 0o10000

/-- `S_IFDIR`. -/
def sIfdir : Nat := 0o20000

/-- `sfs_gettype`: the `st_mode` type bits; any other inode type is a panic. -/
def sfsGettype (ino : Nat) : SfsM Nat := do
  let sv ← Sfs.vnodeOf ino
  if Sfi.type sv.i = sfsTypeFile then pure sIfreg
  else if Sfi.type sv.i = sfsTypeDir then pure sIfdir
  else Run.fail

end Os161
