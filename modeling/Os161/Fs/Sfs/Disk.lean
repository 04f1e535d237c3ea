import Os161.Fs.Sfs.Basic
import Os161.Vm.Spec

/-!
# SFS: what a block transfer does

The specification of the disk layer under the file system: `uiomove` on a uio with room, one
sector of `lhd_io`, the retries of `sfs_rwblock`, and `sfs_rblock`, `sfs_wblock` and `sfs_balloc`
built on them.

A read that the disk fails leaves the uio as it was, so the retry reads the block again: a read
returns the block as long as the disk fails fewer than all eleven tries (`sfsRblock_retries`). A write is different. `lhd_io`
moves the bytes to the card before it starts the disk, so when the disk fails the uio is already
used up, and the retry transfers nothing and succeeds: `sfs_wblock` reports success for a block it
never wrote (`sfsWblock_lost`).
-/

namespace Os161

open ByteMem

namespace Sfs

theorem lucky_apply (s : Sfs) :
    Sfs.lucky s = some (.ok (s.luck.headD true), { s with luck := s.luck.tail }) := by
  unfold Sfs.lucky
  rcases s with ⟨_, _, _, _, _, _, _, _ | ⟨b, bs⟩⟩ <;> rfl

/-- The volume after the disk is asked to put the block `src` from `base` into `sector`: the bytes
land when the transfer succeeds, and the outcome is used up either way. -/
def sectorWritten (s : Sfs) (sector : Nat) (src : Buf) (base : Nat) : Sfs :=
  { s with
    disk := if s.luck.headD true then blit s.disk (sector * sfsBlocksize) src base sfsBlocksize
      else s.disk
    luck := s.luck.tail }

/-- Every transfer and allocation still to come succeeds. -/
def Lucky (s : Sfs) : Prop := false ∉ s.luck

theorem Lucky.headD {s : Sfs} (h : s.Lucky) : s.luck.headD true = true := by
  rcases hl : s.luck with _ | ⟨x, xs⟩
  · rfl
  · rw [Lucky, hl] at h
    have hx : x ≠ false := fun hx => h (hx ▸ List.mem_cons_self)
    simpa using hx

theorem Lucky.tail {s : Sfs} (h : s.Lucky) (s' : Sfs) (hl : s'.luck = s.luck.tail) : s'.Lucky :=
  fun hf => h (by rw [hl] at hf; exact List.mem_of_mem_tail hf)

/-- The failures the disk has in store before its next success. -/
def failsAhead (s : Sfs) : Nat := (s.luck.takeWhile (· = false)).length

theorem failsAhead_of_headD {s : Sfs} (h : s.luck.headD true = true) : s.failsAhead = 0 := by
  rcases hl : s.luck with _ | ⟨x, xs⟩
  · simp [failsAhead, hl]
  · rw [hl] at h
    simp_all [failsAhead]

theorem luck_eq_false_cons {s : Sfs} (h : s.luck.headD true = false) :
    ∃ t, s.luck = false :: t := by
  rcases hl : s.luck with _ | ⟨x, xs⟩
  · simp [hl] at h
  · rw [hl] at h
    exact ⟨xs, by simp_all⟩

/-! ### Vnodes and blocks in use -/

/-- The loaded vnode of inode `ino`, the first in the table. -/
def vnode? (s : Sfs) (ino : Nat) : Option SfsVnode := s.vnodes.find? (·.ino == ino)

/-- The state `modifyVnode ino f` leaves. -/
def withVnode (s : Sfs) (ino : Nat) (f : SfsVnode → SfsVnode) : Sfs :=
  { s with vnodes := s.vnodes.map fun v => if v.ino = ino then f v else v }

/-- Block `b` is on the volume and marked in use: what `sfs_bused` asks. -/
def Used (s : Sfs) (b : Nat) : Prop := b < Sp.nblocks s.super ∧ s.freemap[b]? = some true

variable {s s' : Sfs} {ino : Nat} {sv : SfsVnode}

theorem vnodeOf_of_vnode? (h : s.vnode? ino = some sv) : Sfs.vnodeOf ino s = some (.ok sv, s) := by
  simp only [Sfs.vnodeOf, bind, Run.bind, Run.get]
  rw [show s.vnodes.find? (·.ino == ino) = some sv from h]
  rfl

theorem vnodeOf_ok {r : Except Errno SfsVnode} (h : Sfs.vnodeOf ino s = some (r, s')) :
    ∃ sv, s.vnode? ino = some sv ∧ r = .ok sv ∧ s' = s := by
  rcases hv : s.vnode? ino with _ | sv
  · simp only [Sfs.vnodeOf, bind, Run.bind, Run.get] at h
    rw [show s.vnodes.find? (·.ino == ino) = none from hv] at h
    cases h
  · rw [vnodeOf_of_vnode? hv] at h
    cases h
    exact ⟨sv, rfl, rfl, rfl⟩

theorem modifyVnode_apply (f : SfsVnode → SfsVnode) :
    Sfs.modifyVnode ino f s = some (.ok (), s.withVnode ino f) := rfl

theorem vnode?_withVnode {f : SfsVnode → SfsVnode} (hf : ∀ v, (f v).ino = v.ino) :
    (s.withVnode ino f).vnode? ino = (s.vnode? ino).map f := by
  simp only [vnode?, withVnode]
  induction s.vnodes with
  | nil => rfl
  | cons v vs ih =>
    by_cases hv : v.ino = ino
    · simp [hv, hf]
    · simp [hv, ih]

end Sfs

/-! ### `uiomove` -/

/-- The uio moved on by `n` bytes. -/
def Uio.advance (u : Uio) (n : Nat) : Uio :=
  { u with base := u.base + n, len := u.len - n, resid := u.resid - n, offset := u.offset + n }

/-- What `uiomove` of `n` bytes at `p` in `buf` leaves when the uio has room for them: a read
copies the bytes into the uio's memory, a write into the buffer. -/
def uioMove (buf : Buf) (p n : Nat) (u : Uio) : Buf × Uio :=
  match u.rw with
  | .read => (buf, { u.advance n with mem := blit u.mem u.base buf p n })
  | .write => (blit buf p u.mem u.base n, u.advance n)

theorem uiomove_eq {buf : Buf} {p n : Nat} {u : Uio} (hl : n ≤ u.len) (hr : n ≤ u.resid) :
    uiomove buf p n u = some (uioMove buf p n u) := by
  rcases Nat.eq_zero_or_pos n with rfl | hn
  · rw [uiomove, if_pos (.inl rfl)]
    rcases u with ⟨_, _, _, _, _, _ | _⟩ <;> simp [uioMove, Uio.advance]
  · -- one round moves all `n` bytes, and the next finds nothing left to move
    rw [uiomove, if_neg (by omega), if_neg (by omega), Nat.min_eq_right hl, Nat.sub_self, uiomove,
      if_pos (.inl rfl)]
    rcases u with ⟨_, _, _, _, _, _ | _⟩ <;> rfl

theorem uiomoveM_apply {buf : Buf} {p n : Nat} {s : Sfs} {u : Uio} (hl : n ≤ u.len)
    (hr : n ≤ u.resid) :
    uiomoveM buf p n (s, u) = some (.ok (uioMove buf p n u).1, (s, (uioMove buf p n u).2)) := by
  simp only [uiomoveM, bind, Run.bind, Run.get, uiomove_eq hl hr, Run.ofOption, Run.pure, Run.set]
  rfl

/-! ### One sector of `lhd_io` -/

section Lhd

variable {sector b : Nat} {s : Sfs} {u : Uio}

theorem lhdSector_write (hw : u.rw = .write) (hl : sfsBlocksize ≤ u.len)
    (hr : sfsBlocksize ≤ u.resid) :
    lhdSector sector (s, u) = some (if s.luck.headD true then .ok () else .error Errno.EIO,
      (s.sectorWritten sector u.mem u.base, u.advance sfsBlocksize)) := by
  simp only [lhdSector, bind, Run.bind, Run.get, hw, uiomoveM_apply hl hr, uioMove, Run.onFst,
    Sfs.lucky_apply, Sfs.sectorWritten]
  cases s.luck.headD true <;> simp [Run.modify, Run.throw, blit_blit_zero]

theorem lhdSector_read (hrd : u.rw = .read) (hl : sfsBlocksize ≤ u.len)
    (hr : sfsBlocksize ≤ u.resid) :
    lhdSector sector (s, u) = if s.luck.headD true then
        some (.ok (), ({ s with luck := s.luck.tail }, { u.advance sfsBlocksize with
          mem := blit u.mem u.base s.disk (sector * sfsBlocksize) sfsBlocksize }))
      else some (.error Errno.EIO, ({ s with luck := s.luck.tail }, u)) := by
  simp only [lhdSector, bind, Run.bind, Run.get, hrd, Run.onFst, Sfs.lucky_apply]
  cases s.luck.headD true
  · simp [Run.throw]
  · simp only [if_true, Run.bind, Run.get, uiomoveM_apply hl hr, uioMove, hrd, blit_blit_zero]
    rfl

theorem lhdIo_one (ho : u.offset = b * sfsBlocksize) (hr : u.resid = sfsBlocksize)
    (hb : b < s.dBlocks) : lhdIo (s, u) = lhdSector b (s, u) := by
  simp only [lhdIo, bind, Run.bind, Run.get, ho, hr]
  rw [if_neg (by simp [sfsBlocksize]), if_neg (by simp [sfsBlocksize]; omega)]
  simp only [Nat.div_self (by decide : 0 < sfsBlocksize), lhdSectors,
    Nat.mul_div_cancel _ (by decide : 0 < sfsBlocksize), bind_pure_unit]

theorem lhdIo_empty (ho : u.offset % sfsBlocksize = 0) (hr : u.resid = 0)
    (hb : u.offset / sfsBlocksize ≤ s.dBlocks) : lhdIo (s, u) = some (.ok (), (s, u)) := by
  simp only [lhdIo, bind, Run.bind, Run.get, ho, hr]
  rw [if_neg (by simp), if_neg (by simp; omega)]
  rfl

theorem lhdIo_past_end (ho : u.offset = b * sfsBlocksize) (hr : u.resid = sfsBlocksize)
    (hb : s.dBlocks ≤ b) : lhdIo (s, u) = some (.error .EINVAL, (s, u)) := by
  simp only [lhdIo, bind, Run.bind, Run.get, ho, hr]
  rw [if_neg (by simp [sfsBlocksize]), if_pos (by simp [sfsBlocksize]; omega)]
  rfl

end Lhd

/-! ### `sfs_rwblock` -/

section Rwblock

variable {left b : Nat} {s : Sfs} {u : Uio} {p p' : Sfs × Uio}

theorem sfsRwblockTries_of_ok (h : lhdIo p = some (.ok (), p')) :
    sfsRwblockTries left p = some (.ok (), p') := by
  rw [sfsRwblockTries]
  simp only [bind, Run.bind, Run.attempt, h]
  rfl

theorem sfsRwblockTries_of_eio_zero (h : lhdIo p = some (.error Errno.EIO, p')) :
    sfsRwblockTries 0 p = some (.error Errno.EIO, p') := by
  rw [sfsRwblockTries]
  simp only [bind, Run.bind, Run.attempt, h]
  rfl

theorem sfsRwblockTries_of_eio_succ (h : lhdIo p = some (.error Errno.EIO, p')) :
    sfsRwblockTries (left + 1) p = sfsRwblockTries left p' := by
  rw [sfsRwblockTries]
  simp only [bind, Run.bind, Run.attempt, h]
  rfl

theorem sfsRwblockTries_of_einval (h : lhdIo p = some (.error .EINVAL, p')) :
    sfsRwblockTries left p = none := by
  rw [sfsRwblockTries]
  simp only [bind, Run.bind, Run.attempt, h]
  rfl

theorem sfsRwblockTries_write (hw : u.rw = .write) (hl : sfsBlocksize ≤ u.len)
    (hr : u.resid = sfsBlocksize) (ho : u.offset = b * sfsBlocksize) (hb : b < s.dBlocks)
    (hleft : 0 < left) :
    sfsRwblockTries left (s, u) =
      some (.ok (), (s.sectorWritten b u.mem u.base, u.advance sfsBlocksize)) := by
  have h₁ := lhdIo_one ho hr hb
  rw [lhdSector_write hw hl hr.ge] at h₁
  cases hg : s.luck.headD true
  · -- the retry starts at the next sector, with nothing left to move
    obtain ⟨l, rfl⟩ : ∃ l, left = l + 1 := ⟨left - 1, by omega⟩
    rw [hg] at h₁
    rw [sfsRwblockTries_of_eio_succ h₁]
    apply sfsRwblockTries_of_ok
    apply lhdIo_empty
    · simp [Uio.advance, ho, sfsBlocksize]
    · simp [Uio.advance, hr]
    · simp only [Uio.advance, ho, Sfs.sectorWritten, sfsBlocksize]
      omega
  · rw [hg] at h₁
    exact sfsRwblockTries_of_ok h₁

section Read

variable (hrd : u.rw = .read) (hl : sfsBlocksize ≤ u.len) (hr : u.resid = sfsBlocksize)
  (ho : u.offset = b * sfsBlocksize)
include hrd hl hr ho

theorem sfsRwblockTries_read_good (hb : b < s.dBlocks) (hg : s.luck.headD true = true) :
    sfsRwblockTries left (s, u) = some (.ok (), ({ s with luck := s.luck.tail },
      { u.advance sfsBlocksize with
        mem := blit u.mem u.base s.disk (b * sfsBlocksize) sfsBlocksize })) := by
  have h₁ := lhdIo_one ho hr hb
  rw [lhdSector_read hrd hl hr.ge, if_pos hg] at h₁
  exact sfsRwblockTries_of_ok h₁

theorem lhdIo_read_bad (hb : b < s.dBlocks) (hg : s.luck.headD true = false) :
    lhdIo (s, u) = some (.error Errno.EIO, ({ s with luck := s.luck.tail }, u)) := by
  rw [lhdIo_one ho hr hb, lhdSector_read hrd hl hr.ge,
    if_neg (by rw [hg]; exact Bool.false_ne_true)]

theorem sfsRwblockTries_read_bad (hb : b < s.dBlocks) (hg : s.luck.headD true = false) :
    sfsRwblockTries (left + 1) (s, u) =
      sfsRwblockTries left ({ s with luck := s.luck.tail }, u) :=
  sfsRwblockTries_of_eio_succ (lhdIo_read_bad hrd hl hr ho hb hg)

theorem sfsRwblockTries_read :
    ∀ {left : Nat} {s : Sfs}, b < s.dBlocks →
      sfsRwblockTries left (s, u) =
        if s.failsAhead ≤ left then
          some (.ok (), ({ s with luck := s.luck.drop (s.failsAhead + 1) },
            { u.advance sfsBlocksize with
              mem := blit u.mem u.base s.disk (b * sfsBlocksize) sfsBlocksize }))
        else some (.error Errno.EIO, ({ s with luck := s.luck.drop (left + 1) }, u))
  | left, s, hb => by
    cases hg : s.luck.headD true
    · obtain ⟨t, ht⟩ := Sfs.luck_eq_false_cons hg
      have hf : s.failsAhead = ({ s with luck := t } : Sfs).failsAhead + 1 := by
        simp [Sfs.failsAhead, ht]
      cases left with
      | zero =>
        rw [sfsRwblockTries_of_eio_zero (lhdIo_read_bad hrd hl hr ho hb hg), if_neg (by omega), ht]
        rfl
      | succ left =>
        rw [sfsRwblockTries_read_bad hrd hl hr ho hb hg, sfsRwblockTries_read (s := { s with luck := s.luck.tail }) hb]
        simp only [hf, ht, List.tail_cons, Nat.add_le_add_iff_right, List.drop_succ_cons]
    · rw [sfsRwblockTries_read_good hrd hl hr ho hb hg, if_pos (by rw [Sfs.failsAhead_of_headD hg]; omega),
        Sfs.failsAhead_of_headD hg, List.drop_one]

end Read

end Rwblock

/-! ### Blocks -/

section Blocks

variable {s : Sfs} {b : Nat}

theorem sfsWblock_apply (data : Buf) (hb : b < s.dBlocks) :
    sfsWblock data b s = some (.ok (), s.sectorWritten b data 0) := by
  have h : sfsRwblockTries 10 (s, mkKuio data sfsBlocksize (b * sfsBlocksize) .write) = _ :=
    sfsRwblockTries_write rfl le_rfl rfl rfl hb (by decide)
  simp only [sfsWblock, sfsRwblock, bind, Run.bind, Run.withSnd, h]
  rfl

/-- When the disk fails the transfer, `sfs_wblock` still reports success, and the block on the disk
is what it was. -/
theorem sfsWblock_lost (data : Buf) (hb : b < s.dBlocks) (hf : s.luck.head? = some false) :
    ∃ s', sfsWblock data b s = some (.ok (), s') ∧ s'.disk = s.disk := by
  refine ⟨_, sfsWblock_apply data hb, ?_⟩
  obtain ⟨bs, hbs⟩ := List.head?_eq_some_iff.1 hf
  simp [Sfs.sectorWritten, hbs]

/-- A volume of one block, zeroed, with its free map and no vnodes, whose disk gives the outcomes
`luck`. -/
def oneBlockVolume (luck : List Bool) : Sfs where
  disk := fun _ => 0
  dBlocks := 1
  super := fun _ => 0
  superdirty := false
  freemap := [true]
  freemapdirty := false
  vnodes := []
  luck := luck

/-- Ones written to the block of a zeroed disk that fails once: the write succeeds and the disk
stays zero. -/
theorem sfsWblock_lost_once :
    ∃ s', sfsWblock (fun _ => 1) 0 (oneBlockVolume [false]) = some (.ok (), s') ∧
      s'.disk = (oneBlockVolume [false]).disk :=
  sfsWblock_lost _ (by decide) rfl

/-- `sfs_rblock` of a block on the disk returns the block's bytes when the disk fails at most ten
of its eleven tries, and `EIO` otherwise; the volume keeps all but the outcomes used up. -/
theorem sfsRblock_retries (data : Buf) (hb : b < s.dBlocks) :
    sfsRblock data b s =
      if s.failsAhead ≤ 10 then
        some (.ok (blit data 0 s.disk (b * sfsBlocksize) sfsBlocksize),
          { s with luck := s.luck.drop (s.failsAhead + 1) })
      else some (.error Errno.EIO, { s with luck := s.luck.drop 11 }) := by
  have h : sfsRwblockTries 10 (s, mkKuio data sfsBlocksize (b * sfsBlocksize) .read) = _ :=
    sfsRwblockTries_read rfl le_rfl rfl rfl hb
  simp only [sfsRblock, sfsRwblock, bind, Run.bind, Run.withSnd]
  by_cases hk : s.failsAhead ≤ 10
  · rw [if_pos hk] at h ⊢
    rw [h]
    rfl
  · rw [if_neg hk] at h ⊢
    rw [h]

/-- Two failures of the disk, then the read of the zeroed block succeeds. -/
theorem sfsRblock_two_failures :
    sfsRblock (fun _ => 1) 0 (oneBlockVolume [false, false]) =
      some (.ok (blit (fun _ => 1) 0 (oneBlockVolume [false, false]).disk 0 sfsBlocksize),
        { oneBlockVolume [false, false] with luck := [] }) :=
  (sfsRblock_retries _ (by decide)).trans (if_pos (by decide))

theorem sfsBalloc_ok {fm : List Bool} (ha : bitmapAlloc s.freemap = .ok (b, fm))
    (hn : b < Sp.nblocks s.super) (hb : b < s.dBlocks) :
    sfsBalloc s = some (.ok b,
      ({ s with freemap := fm, freemapdirty := true } : Sfs).sectorWritten b (fun _ => 0) 0) := by
  have hw := sfsWblock_apply (s := { s with freemap := fm, freemapdirty := true }) (fun _ => 0) hb
  unfold sfsBalloc
  simp only [bind, Run.bind, Run.get]
  rw [ha]
  dsimp only
  rw [Run.bind, Run.set]
  dsimp only
  rw [if_neg (Nat.not_le.2 hn), Run.bind, sfsClearblock, hw]
  rfl

theorem sfsBalloc_error {e : Errno} (ha : bitmapAlloc s.freemap = .error e) :
    sfsBalloc s = some (.error e, s) := by
  unfold sfsBalloc
  simp only [bind, Run.bind, Run.get]
  rw [ha]
  rfl

end Blocks

end Os161
