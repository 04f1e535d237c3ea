import Os161.Fs.Sfs.Bmap

/-!
# SFS: file I/O

`sfs_io` moves the bytes of a uio between a file and memory in three parts: a leading part of a
block, through the static `iobuf` (`sfs_partialio`); whole blocks, directly between the disk and
the uio (`sfs_blockio`); and a trailing part of a block. A read stops at the end of the file, and
a write that ends past it moves the end, even when it fails part way.
-/

namespace Os161

open ByteMem

/-- `sfs_partialio(sv, uio, skipstart, len)`: `len` bytes from `skipstart` in the block the uio's
offset is in. A write reads the block in first, so that the rest of it is kept, and writes it
back; a hole reads as zeros. -/
def sfsPartialio (ino skipstart len : Nat) : UioM Unit := do
  let (_, u) ← Run.get
  Run.assert (skipstart + len ≤ sfsBlocksize)
  let diskblock ← Run.onFst (sfsBmap ino (u.offset / sfsBlocksize) (u.rw == .write))
  let iobuf ← if diskblock = 0 then do
      Run.assert (u.rw = .read)
      pure fun _ => 0
    else Run.onFst (sfsRblock (fun _ => 0) diskblock)
  let iobuf ← uiomoveM iobuf skipstart len
  if u.rw = .write then Run.onFst (sfsWblock iobuf diskblock)

/-- `sfs_blockio(sv, uio)`: one whole block, between the disk and the uio itself. While
`sfs_rwblock` runs the uio's offset is the disk's and its residue one block; both are then put
back and moved on by what the transfer moved. -/
def sfsBlockio (ino : Nat) : UioM Unit := do
  let (_, u) ← Run.get
  let diskblock ← Run.onFst (sfsBmap ino (u.offset / sfsBlocksize) (u.rw == .write))
  if diskblock = 0 then do
    Run.assert (u.rw = .read)
    uiomovezeros sfsBlocksize
  else do
    let diskoff := diskblock * sfsBlocksize
    Run.assert (u.resid ≥ sfsBlocksize)
    Run.modify fun (s, u) => (s, { u with offset := diskoff, resid := sfsBlocksize })
    let r ← Run.attempt sfsRwblock
    Run.modify fun (s, u') =>
      (s, { u' with offset := u'.offset - diskoff + u.offset,
                    resid := u'.resid - sfsBlocksize + u.resid })
    Run.ofExcept r

/-- `sfs_io`'s loop over `nblocks` whole blocks. -/
def sfsBlockioLoop (ino : Nat) : Nat → UioM Unit
  | 0 => pure ()
  | n + 1 => do
    sfsBlockio ino
    sfsBlockioLoop ino n

/-- The transfers of `sfs_io` before its label `out`: the rest of the block the offset is in,
the whole blocks, and the start of the block after them. -/
def sfsIoTransfer (ino : Nat) : UioM Unit := do
  let (_, u) ← Run.get
  if u.offset % sfsBlocksize ≠ 0 then
    sfsPartialio ino (u.offset % sfsBlocksize)
      (min (sfsBlocksize - u.offset % sfsBlocksize) u.resid)
  let (_, u) ← Run.get
  if u.resid ≠ 0 then
    Run.assert (u.offset % sfsBlocksize = 0)
    sfsBlockioLoop ino (u.resid / sfsBlocksize)
    let (_, u) ← Run.get
    Run.assert (u.resid < sfsBlocksize)
    if u.resid > 0 then sfsPartialio ino 0 u.resid

/-- `sfs_io(sv, uio)`. A read at or past the end of the file does nothing; a read across it hides
the part past it (`extraresid`) and gives it back at the end. After the transfers, whether they
failed or not, a write that ended past the end of the file moves it. -/
def sfsIo (ino : Nat) : UioM Unit := do
  let (_, u) ← Run.get
  let sv ← Run.onFst (Sfs.vnodeOf ino)
  if u.rw = .read ∧ u.offset ≥ Sfi.size sv.i then pure ()
  else
    let extraresid := if u.rw = .read then u.offset + u.resid - Sfi.size sv.i else 0
    if extraresid > 0 then
      Run.assert (u.resid > extraresid)
      Run.modify fun (s, u) => (s, { u with resid := u.resid - extraresid })
    let r ← Run.attempt (sfsIoTransfer ino)
    let (_, u) ← Run.get
    let sv ← Run.onFst (Sfs.vnodeOf ino)
    if u.rw = .write ∧ u.offset > Sfi.size sv.i then
      Run.onFst (Sfs.modifyVnode ino fun v => { v with i := Sfi.setSize v.i u.offset, dirty := true })
    Run.modify fun (s, u) => (s, { u with resid := u.resid + extraresid })
    Run.ofExcept r

/-- `sfs_read`: `sfs_io` on a uio that reads. -/
def sfsRead (ino : Nat) : UioM Unit := do
  let (_, u) ← Run.get
  Run.assert (u.rw = .read)
  sfsIo ino

/-- `sfs_write`: `sfs_io` on a uio that writes. -/
def sfsWrite (ino : Nat) : UioM Unit := do
  let (_, u) ← Run.get
  Run.assert (u.rw = .write)
  sfsIo ino

end Os161
