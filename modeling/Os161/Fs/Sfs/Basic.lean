import Os161.Lib.Run
import Os161.Vm.Frames

/-!
# SFS: the disk, blocks and inodes

The lowest layer of `kern/fs/sfs`: the `lhd` disk under it (`lhd_io`), block transfers with
`sfs_rwblock`'s retries, the free-block bitmap (`sfs_balloc`, `sfs_bfree`, `sfs_bused`), the
on-disk inode as the bytes `struct sfs_inode` lays out, and `uiomove`.

A volume's state is a `Sfs`: the disk's bytes, the superblock, the free map and the table of
loaded vnodes, each holding its inode `sv_i` as the 512 bytes the code reads and writes. Buffers
in memory (a `struct uio`'s, the static `iobuf` and `idbuf`, an inode) are byte memories from
their own address 0. What can fail at random, a sector transfer or an allocation, does as the
next entry of `luck` says, and succeeds when it is empty.

`sfs_rwblock` tries a transfer again after `EIO`, up to ten times. `lhd_io` moves a write's bytes
to the card before it asks the disk, so after a failed write the uio is used up, the next try
transfers nothing, and the write is reported done although the sector was never written
(`sfsWblock_of_unlucky`).
-/

namespace Os161

open ByteMem

/-- A buffer in memory, or the disk, byte by byte from its start. -/
abbrev Buf := Nat → UInt8

/-- `SFS_BLOCKSIZE`, which is also `LHD_SECTSIZE`. -/
def sfsBlocksize : Nat := 512

/-- `SFS_NDIRECT`. -/
def sfsNdirect : Nat := 15

/-- `SFS_DBPERIDB`. -/
def sfsDbperidb : Nat := 128

/-- `SFS_NAMELEN`. -/
def sfsNamelen : Nat := 60

/-- `SFS_MAGIC`. -/
def sfsMagic : Nat := 0xabadf001

/-- `SFS_SB_LOCATION`. -/
def sfsSbLocation : Nat := 0

/-- `SFS_ROOT_LOCATION`. -/
def sfsRootLocation : Nat := 1

/-- `SFS_MAP_LOCATION`. -/
def sfsMapLocation : Nat := 2

/-- `SFS_NOINO`. -/
def sfsNoino : Nat := 0

/-- `SFS_TYPE_INVAL`. -/
def sfsTypeInval : Nat := 0

/-- `SFS_TYPE_FILE`. -/
def sfsTypeFile : Nat := 1

/-- `SFS_TYPE_DIR`. -/
def sfsTypeDir : Nat := 2

/-- `sizeof(struct sfs_dir)`. -/
def sfsDirSize : Nat := 64

/-- `SFS_BITMAPSIZE(nblocks)`: bits in the free map, rounded up to whole blocks of bits. -/
def sfsBitmapsize (nblocks : Nat) : Nat := (nblocks + 4096 - 1) / 4096 * 4096

/-- `SFS_BITBLOCKS(nblocks)`. -/
def sfsBitblocks (nblocks : Nat) : Nat := sfsBitmapsize nblocks / 4096

/-! ### `struct sfs_inode` and `struct sfs_super` in bytes -/

namespace Sfi

/-- `sfi_size`. -/
def size (i : Buf) : Nat := loadWord i 0

/-- `sfi_type`. -/
def type (i : Buf) : Nat := loadHalf i 4

/-- `sfi_linkcount`. -/
def linkcount (i : Buf) : Nat := loadHalf i 6

/-- `sfi_direct[k]`. -/
def direct (i : Buf) (k : Nat) : Nat := loadWord i (8 + 4 * k)

/-- `sfi_indirect`. -/
def indirect (i : Buf) : Nat := loadWord i 68

/-- `sfi_size = n`, which keeps the low 32 bits. -/
def setSize (i : Buf) (n : Nat) : Buf := store i 0 (wordBytes n)

/-- `sfi_type = t`. -/
def setType (i : Buf) (t : Nat) : Buf := store i 4 (halfBytes t)

/-- `sfi_linkcount = n`. -/
def setLinkcount (i : Buf) (n : Nat) : Buf := store i 6 (halfBytes n)

/-- `sfi_direct[k] = b`. -/
def setDirect (i : Buf) (k b : Nat) : Buf := store i (8 + 4 * k) (wordBytes b)

/-- `sfi_indirect = b`. -/
def setIndirect (i : Buf) (b : Nat) : Buf := store i 68 (wordBytes b)

end Sfi

namespace Sp

/-- `sp_magic`. -/
def magic (sp : Buf) : Nat := loadWord sp 0

/-- `sp_nblocks`. -/
def nblocks (sp : Buf) : Nat := loadWord sp 4

end Sp

/-! ### The state -/

/-- `struct sfs_vnode`, with the reference count of its `struct vnode`. -/
structure SfsVnode where
  ino : Nat
  i : Buf
  dirty : Bool
  refcount : Nat

/-- A mounted volume (`struct sfs_fs`) and the disk under it. -/
structure Sfs where
  disk : Buf
  dBlocks : Nat
  super : Buf
  superdirty : Bool
  freemap : List Bool
  freemapdirty : Bool
  vnodes : List SfsVnode
  luck : List Bool

/-- A computation on a volume. -/
abbrev SfsM := Run Sfs Errno

/-- `enum uio_rw`. -/
inductive UioRw
  | read
  | write
  deriving DecidableEq, Repr

/-- A `struct uio` with its one `iovec`: the memory the base points into (a kernel buffer, or the
user's memory, which `uiomove` reaches alike here), the base, and the lengths and the offset. -/
structure Uio where
  mem : Buf
  base : Nat
  len : Nat
  offset : Nat
  resid : Nat
  rw : UioRw

/-- A computation on a volume and a uio the caller passed by pointer. -/
abbrev UioM := Run (Sfs × Uio) Errno

/-- `mk_kuio`: `len` bytes of a kernel buffer, for the transfer at `pos`. -/
def mkKuio (kbuf : Buf) (len pos : Nat) (rw : UioRw) : Uio := ⟨kbuf, 0, len, pos, len, rw⟩

namespace Sfs

/-- Whether the next operation that can fail, a sector transfer or an allocation, succeeds. -/
def lucky : SfsM Bool := fun s =>
  match s.luck with
  | [] => some (.ok true, s)
  | b :: bs => some (.ok b, { s with luck := bs })

/-- The loaded vnode of inode `ino`; a panic where the code would follow a dangling pointer. -/
def vnodeOf (ino : Nat) : SfsM SfsVnode := do
  let s ← Run.get
  Run.ofOption (s.vnodes.find? (·.ino == ino))

/-- Change the loaded vnode of inode `ino` by `f`. -/
def modifyVnode (ino : Nat) (f : SfsVnode → SfsVnode) : SfsM Unit :=
  Run.modify fun s => { s with vnodes := s.vnodes.map fun v => if v.ino = ino then f v else v }

end Sfs

/-! ### `uiomove` and the disk -/

/-- `uiomove(ptr, n, uio)` with `ptr` at `p` in the kernel buffer `buf`: the buffer and the uio it
leaves, or a panic. Callers never ask for more than `uio_resid` bytes. -/
def uiomove (buf : Buf) (p n : Nat) (u : Uio) : Option (Buf × Uio) :=
  if n = 0 ∨ u.resid = 0 then some (buf, u)
  else
    let size := min u.len n
    if size = 0 then none
    else
      let moved : Buf × Uio := match u.rw with
        | .read => (buf, { u with mem := blit u.mem u.base buf p size })
        | .write => (blit buf p u.mem u.base size, u)
      uiomove moved.1 (p + size) (n - size)
        { moved.2 with base := u.base + size, len := u.len - size, resid := u.resid - size,
                       offset := u.offset + size }
termination_by n
decreasing_by omega

/-- `uiomove` on the uio in the state; the buffer it leaves. -/
def uiomoveM (buf : Buf) (p n : Nat) : UioM Buf := do
  let (s, u) ← Run.get
  let (buf, u) ← Run.ofOption (uiomove buf p n u)
  Run.set (s, u)
  pure buf

/-- The loop of `uiomovezeros`: `n` zero bytes, sixteen at a time. -/
def uiomovezerosLoop (n : Nat) : UioM Unit :=
  if n = 0 then pure ()
  else do
    let amt := min 16 n
    let _ ← uiomoveM (fun _ => 0) 0 amt
    uiomovezerosLoop (n - amt)
termination_by n
decreasing_by omega

/-- `uiomovezeros(n, uio)`, which asserts that the uio is read into. -/
def uiomovezeros (n : Nat) : UioM Unit := do
  let (_, u) ← Run.get
  Run.assert (u.rw = .read)
  uiomovezerosLoop n

/-- One sector of `lhd_io`'s loop. The card's buffer `lh_buf` is filled from the uio before a
write and from the disk before it is moved to the uio on a read. -/
def lhdSector (sector : Nat) : UioM Unit := do
  let (_, u) ← Run.get
  match u.rw with
  | .write =>
    let buf ← uiomoveM (fun _ => 0) 0 sfsBlocksize
    if ← Run.onFst Sfs.lucky then
      Run.modify fun (s, u) => ({ s with disk := blit s.disk (sector * sfsBlocksize) buf 0 sfsBlocksize }, u)
    else Run.throw Errno.EIO
  | .read =>
    if ← Run.onFst Sfs.lucky then do
      let (s, _) ← Run.get
      let _ ← uiomoveM (blit (fun _ => 0) 0 s.disk (sector * sfsBlocksize) sfsBlocksize) 0 sfsBlocksize
      pure ()
    else Run.throw Errno.EIO

/-- The sectors from `sector` on, `k` of them. -/
def lhdSectors : Nat → Nat → UioM Unit
  | _, 0 => pure ()
  | sector, k + 1 => do
    lhdSector sector
    lhdSectors (sector + 1) k

/-- `lhd_io`: whole sectors only, and none past the end of the disk. -/
def lhdIo : UioM Unit := do
  let (s, u) ← Run.get
  let sector := u.offset / sfsBlocksize
  let len := u.resid / sfsBlocksize
  if u.offset % sfsBlocksize ≠ 0 ∨ u.resid % sfsBlocksize ≠ 0 then Run.throw .EINVAL
  else if sector + len > s.dBlocks then Run.throw .EINVAL
  else lhdSectors sector len

/-- `sfs_rwblock` with `left` tries to go after this one: `EINVAL` is a panic, and `EIO` is tried
again while tries are left. -/
def sfsRwblockTries (left : Nat) : UioM Unit := do
  match ← Run.attempt lhdIo with
  | .ok () => pure ()
  | .error .EINVAL => Run.fail
  | .error e =>
    if e = Errno.EIO then
      match left with
      | 0 => Run.throw e
      | left' + 1 => sfsRwblockTries left'
    else Run.throw e
termination_by left

/-- `sfs_rwblock`: the first try and ten more. -/
def sfsRwblock : UioM Unit := sfsRwblockTries 10

/-- `sfs_rblock`: block `b` into the kernel buffer `data`, which it hands back. -/
def sfsRblock (data : Buf) (b : Nat) : SfsM Buf := do
  let ((), u) ← Run.withSnd (mkKuio data sfsBlocksize (b * sfsBlocksize) .read) sfsRwblock
  pure u.mem

/-- `sfs_wblock`: the kernel buffer `data` to block `b`. -/
def sfsWblock (data : Buf) (b : Nat) : SfsM Unit := do
  let _ ← Run.withSnd (mkKuio data sfsBlocksize (b * sfsBlocksize) .write) sfsRwblock
  pure ()

/-! ### Blocks and inodes -/

/-- `sfs_clearblock`. -/
def sfsClearblock (b : Nat) : SfsM Unit := sfsWblock (fun _ => 0) b

/-- `sfs_balloc`: the first free block, marked and cleared. A block past `sp_nblocks` is a
panic. -/
def sfsBalloc : SfsM Nat := do
  let s ← Run.get
  match bitmapAlloc s.freemap with
  | .error e => Run.throw e
  | .ok (b, fm) =>
    Run.set { s with freemap := fm, freemapdirty := true }
    if b ≥ Sp.nblocks s.super then Run.fail
    else do
      sfsClearblock b
      pure b

/-- `sfs_bfree`; `bitmap_unmark` asserts that the bit was set. -/
def sfsBfree (b : Nat) : SfsM Unit := do
  let s ← Run.get
  if s.freemap[b]? = some true then
    Run.set { s with freemap := s.freemap.set b false, freemapdirty := true }
  else Run.fail

/-- `sfs_bused`; a block past `sp_nblocks` is a panic. -/
def sfsBused (b : Nat) : SfsM Bool := do
  let s ← Run.get
  if b ≥ Sp.nblocks s.super then Run.fail
  else pure (s.freemap[b]?.getD false)

/-- `sfs_sync_inode`: a dirty inode back to its block. -/
def sfsSyncInode (ino : Nat) : SfsM Unit := do
  let sv ← Sfs.vnodeOf ino
  if sv.dirty then
    sfsWblock sv.i ino
    Sfs.modifyVnode ino fun v => { v with dirty := false }

end Os161
