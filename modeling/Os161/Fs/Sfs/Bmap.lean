import Os161.Fs.Sfs.Disk

/-!
# SFS: block mapping and truncation

`sfs_bmap` maps a block of a file to its disk block through the fifteen direct entries of the
inode and the one indirect block, allocating what is missing when asked to; `sfs_truncate` frees
the blocks past a new end. Both keep their indirect block in a static buffer that they fill, by
reading the block or by clearing it, before they read from it, so a call sees only the bytes it
put there: the model starts it at zero.
-/

namespace Os161

open ByteMem

/-! ### `sfs_bmap` -/

/-- The end of `sfs_bmap`: a mapped block that the free map calls free is a panic. -/
def sfsBmapResult (block : Nat) : SfsM Nat := do
  if block ≠ 0 then
    if !(← sfsBused block) then Run.fail
  pure block

/-- Entry `idoff` of the indirect block `idblock`, held in `idbuf`: when it is empty and
`doalloc` is set, a block is allocated and the indirect block written back. -/
def sfsBmapEntry (idblock : Nat) (idbuf : Buf) (idoff : Nat) (doalloc : Bool) : SfsM Nat := do
  let block ← if loadWord idbuf (4 * idoff) = 0 ∧ doalloc = true then do
      let block ← sfsBalloc
      sfsWblock (store idbuf (4 * idoff) (wordBytes block)) idblock
      pure block
    else pure (loadWord idbuf (4 * idoff))
  sfsBmapResult block

/-- The indirect half of `sfs_bmap`, at entry `idoff`. With no indirect block every entry reads
as `0`, unless `doalloc` asks for one: it is then allocated, and its buffer cleared. -/
def sfsBmapIndirect (ino idoff : Nat) (doalloc : Bool) : SfsM Nat := do
  let sv ← Sfs.vnodeOf ino
  if Sfi.indirect sv.i = 0 then
    if doalloc then
      let idblock ← sfsBalloc
      Sfs.modifyVnode ino fun v => { v with i := Sfi.setIndirect v.i idblock, dirty := true }
      sfsBmapEntry idblock (fun _ => 0) idoff doalloc
    else pure 0
  else
    let idbuf ← sfsRblock (fun _ => 0) (Sfi.indirect sv.i)
    sfsBmapEntry (Sfi.indirect sv.i) idbuf idoff doalloc

/-- `sfs_bmap(sv, fileblock, doalloc, &diskblock)` for the vnode of inode `ino`: the disk block,
`0` where none is mapped, and `EINVAL` past the indirect block. -/
def sfsBmap (ino fileblock : Nat) (doalloc : Bool) : SfsM Nat := do
  if fileblock < sfsNdirect then
    let sv ← Sfs.vnodeOf ino
    let block ← if Sfi.direct sv.i fileblock = 0 ∧ doalloc = true then do
        let block ← sfsBalloc
        Sfs.modifyVnode ino fun v =>
          { v with i := Sfi.setDirect v.i fileblock block, dirty := true }
        pure block
      else pure (Sfi.direct sv.i fileblock)
    sfsBmapResult block
  else if (fileblock - sfsNdirect) / sfsDbperidb > 0 then Run.throw .EINVAL
  else sfsBmapIndirect ino ((fileblock - sfsNdirect) % sfsDbperidb) doalloc

/-! ### `sfs_truncate` -/

/-- Direct entry `i` in `sfs_truncate`'s first loop: freed and cleared at or past `blocklen`. -/
def sfsTruncateDirect (ino blocklen i : Nat) : SfsM Unit := do
  let sv ← Sfs.vnodeOf ino
  if i ≥ blocklen ∧ Sfi.direct sv.i i ≠ 0 then
    sfsBfree (Sfi.direct sv.i i)
    Sfs.modifyVnode ino fun v => { v with i := Sfi.setDirect v.i i 0, dirty := true }

/-- What `sfs_truncate`'s loop over the indirect block carries. -/
structure IdScan where
  idbuf : Buf
  iddirty : Bool
  hasnonzero : Bool

/-- Entry `j` in `sfs_truncate`'s loop over the indirect block, whose entries are the file's
blocks from `SFS_NDIRECT` on. -/
def sfsTruncateEntry (blocklen : Nat) (sc : IdScan) (j : Nat) : SfsM IdScan := do
  let sc ← if blocklen < sfsNdirect + j ∧ loadWord sc.idbuf (4 * j) ≠ 0 then do
      sfsBfree (loadWord sc.idbuf (4 * j))
      pure { sc with idbuf := store sc.idbuf (4 * j) (wordBytes 0), iddirty := true }
    else pure sc
  pure { sc with hasnonzero := sc.hasnonzero || loadWord sc.idbuf (4 * j) != 0 }

/-- `sfs_truncate(v, len)`. The indirect block is looked at only when `blocklen` is below
`highblock`, which is `SFS_NDIRECT + SFS_DBPERIDB - 1`. -/
def sfsTruncate (ino len : Nat) : SfsM Unit := do
  let blocklen := (len + sfsBlocksize - 1) / sfsBlocksize
  (List.range sfsNdirect).forM (sfsTruncateDirect ino blocklen)
  let sv ← Sfs.vnodeOf ino
  if blocklen < sfsNdirect + sfsDbperidb - 1 ∧ Sfi.indirect sv.i ≠ 0 then
    let idbuf ← sfsRblock (fun _ => 0) (Sfi.indirect sv.i)
    let sc ← (List.range sfsDbperidb).foldlM (sfsTruncateEntry blocklen) ⟨idbuf, false, false⟩
    if !sc.hasnonzero then
      sfsBfree (Sfi.indirect sv.i)
      Sfs.modifyVnode ino fun v => { v with i := Sfi.setIndirect v.i 0, dirty := true }
    else if sc.iddirty then
      sfsWblock sc.idbuf (Sfi.indirect sv.i)
  Sfs.modifyVnode ino fun v => { v with i := Sfi.setSize v.i len, dirty := true }

end Os161
