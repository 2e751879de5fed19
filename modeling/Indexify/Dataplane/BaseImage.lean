import Mathlib.Data.Nat.Notation
import Mathlib.Tactic.SplitIfs
import Indexify.Library.Trace

/-! The base image of the VMs: a thin LV into which the base rootfs file is copied once. Later runs
look at the size of the LV only. -/
namespace Indexify.Dataplane.BaseImage
open List

/-- One run of the setup: the file it is given, the commands that fail, and what the device holds if
the copy breaks off. A crash is the failure of the command before which it comes. -/
structure Setup where
  baseRootfs : List UInt8
  lvsFails : Bool := false
  lvremoveFails : Bool := false
  lvcreateFails : Bool := false
  brokenOff : Option (List UInt8) := none

def imported (extent : ℕ) (bytes : List UInt8) : List UInt8 :=
  bytes++replicate ((bytes.length+extent-1)/extent*extent-bytes.length) 0

/-- The LV after the run, and whether the run returns a handle. -/
def setupBaseImage (extent : ℕ) (lv : Option (List UInt8)) (r : Setup) : Option (List UInt8) × Bool :=
  match lv,r.lvsFails with
  | some bytes,true => (some bytes,false)
  | some bytes,false =>
    if r.baseRootfs.length ≤ bytes.length then (some bytes,true)
    else if r.lvremoveFails then (some bytes,false)
    else create
  | none,_ => create
where
  create : Option (List UInt8) × Bool :=
    if r.lvcreateFails then (none,false)
    else
      match r.brokenOff with
      | some bytes => (some bytes,false)
      | none => (some (imported extent r.baseRootfs),true)

def Copies (base : List UInt8) (_ : Option (List UInt8)) (r : Setup) : Prop :=
  r.baseRootfs=base ∧ r.brokenOff=none

def Holds (base : List UInt8) (lv : Option (List UInt8)) : Prop := ∀ bytes∈lv, base <+: bytes

variable (extent : ℕ) {base : List UInt8} {lv : Option (List UInt8)} {r : Setup}

lemma holds_setupBaseImage (h : Holds base lv) (hr : Copies base lv r) :
    Holds base (setupBaseImage extent lv r).1 ∧
      ((setupBaseImage extent lv r).2 = true → (setupBaseImage extent lv r).1 ≠ none) := by
  have hcreate : Holds base (setupBaseImage.create extent r).1 ∧
      ((setupBaseImage.create extent r).2 = true → (setupBaseImage.create extent r).1 ≠ none) := by
    unfold setupBaseImage.create
    rw [hr.2,hr.1]
    split_ifs
    · exact ⟨nofun,nofun⟩
    · refine ⟨?_,nofun⟩
      rintro _ ⟨⟩
      exact prefix_append _ _
  unfold setupBaseImage
  split
  · exact ⟨h,nofun⟩
  · split_ifs
    · exact ⟨h,nofun⟩
    · exact ⟨h,nofun⟩
    · exact hcreate
  · exact hcreate

/-- After any runs that are given the same file and whose copies do not break off, whatever else
fails, a run that returns a handle leaves an LV that starts with the file. -/
theorem handle_holds_base (extent : ℕ) (base : List UInt8) (runs : List Setup)
    (hruns : Trace.Along (fun lv r => (setupBaseImage extent lv r).1) (Copies base) none runs)
    (r : Setup) (hr : r.baseRootfs=base ∧ r.brokenOff=none) :
    let after := setupBaseImage extent (runs.foldl (fun lv r => (setupBaseImage extent lv r).1) none) r
    after.2 = true → ∃ bytes, after.1 = some bytes ∧ base <+: bytes := by
  intro after hok
  have hbefore := @Trace.Along.invariant _ _ (fun lv r => (setupBaseImage extent lv r).1) (Copies base)
    (Holds base) (fun h hr => (holds_setupBaseImage extent h hr).1) none runs nofun hruns
  obtain ⟨hholds,hsome⟩ := holds_setupBaseImage extent hbefore hr
  obtain ⟨bytes,hbytes⟩ := Option.ne_none_iff_exists'.mp (hsome hok)
  exact ⟨bytes,hbytes,hholds bytes hbytes⟩

/-- The second run finds the LV of the first. -/
theorem reused_image_holds_base : ∃ bytes,
    (setupBaseImage 4 (some [1,2,3,0]) ⟨[1,2,3],false,false,false,none⟩).1 = some bytes ∧
      [1,2,3] <+: bytes :=
  handle_holds_base 4 [1,2,3] [⟨[1,2,3],false,false,false,none⟩] ⟨⟨rfl,rfl⟩,trivial⟩
    ⟨[1,2,3],false,false,false,none⟩ ⟨rfl,rfl⟩ rfl

/-- A run after a copy that broke off, and one with another file, return the old LV. -/
theorem stale_image_returned :
    setupBaseImage 4 (setupBaseImage 4 none {baseRootfs := [1,2,3], brokenOff := some [1,0,0,0]}).1
      {baseRootfs := [1,2,3]} = (some [1,0,0,0],true) ∧
    setupBaseImage 4 (setupBaseImage 4 none {baseRootfs := [1,2,3]}).1 {baseRootfs := [4,5]} =
      (some [1,2,3,0],true) := by
  decide

end Indexify.Dataplane.BaseImage
