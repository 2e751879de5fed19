import Mathlib.Algebra.Order.Ring.Nat
import Indexify.Dataplane.DeltaRestores

/-! A delta that is built from the changed ranges of a device and restored onto its base. The
compression of the stream is left out. Sizes are those of whole extents, ranges are whole blocks, so
that no write to a device opened with `O_DIRECT` is refused for its alignment, the commands of LVM
succeed, and what a resize adds to a device reads as zero. -/
namespace Indexify.Dataplane.DeltaRestores
open List

/-- The size of a device fits in its word. -/
structure Device where
  bytes : List UInt8
  size_lt : bytes.length<2^64

def Device.size (d : Device) : ℕ := d.bytes.length

def Device.byte (d : Device) (i : ℕ) : UInt8 := d.bytes.getD i 0

structure ThinDeltaRange where
  byteOffset : ℕ
  byteLength : ℕ
  fits : byteOffset+byteLength<2^64

def ThinDeltaRange.Covers (r : ThinDeltaRange) (i : ℕ) : Prop :=
  r.byteOffset ≤ i ∧ i<r.byteOffset+r.byteLength

def toLeBytes : ℕ → ℕ → List UInt8
  | 0,_ => []
  | width+1,n => UInt8.ofNat n::toLeBytes width (n/256)

def writeDeltaHeader (blockSize imageSize : ℕ) : List UInt8 :=
  deltaMagic++toLeBytes 4 blockSize++toLeBytes 8 imageSize++replicate 12 0

def BlockRecord.encode (r : BlockRecord) : List UInt8 :=
  toLeBytes 8 r.offset++toLeBytes 4 r.data.length++r.data

def BlockRecord.Holds (r : BlockRecord) (i : ℕ) : Prop := r.offset ≤ i ∧ i<r.offset+r.data.length
  deriving Decidable

/-- The records of a range from an offset on, one block each. -/
def rangeRecords (vm : Device) (rangeEnd : ℕ) : ℕ → ℕ → List BlockRecord
  | 0,_ => []
  | fuel+1,offset =>
    if offset<rangeEnd then
      let chunkLen := min (rangeEnd-offset) blockSize
      ⟨offset,(vm.bytes.drop offset).take chunkLen⟩::rangeRecords vm rangeEnd fuel (offset+chunkLen)
    else []

/-- A range is cut at the end of the device. -/
def changedRecords (vm : Device) (r : ThinDeltaRange) : List BlockRecord :=
  if vm.size ≤ r.byteOffset then []
  else rangeRecords vm (min (r.byteOffset+r.byteLength) vm.size) r.byteLength r.byteOffset

def buildDeltaFromRanges (vm : Device) (ranges : List ThinDeltaRange) : List UInt8 :=
  writeDeltaHeader blockSize vm.size++(ranges.flatMap (changedRecords vm)).flatMap BlockRecord.encode

def writeAllAt (content : ℕ → UInt8) (r : BlockRecord) : ℕ → UInt8 := fun i =>
  if r.Holds i then r.data.getD (i-r.offset) 0 else content i

/-- The reported size and the bytes of the restored device. `resizeFs` is what `e2fsck` and `resize2fs`
make of it. A record past the end of the device cannot be written. -/
def createSnapshotFromDelta (resizeFs : (ℕ → UInt8) → ℕ → UInt8) (base : Device) (requestedSize : ℕ)
    (delta : List UInt8) : Option (ℕ × (ℕ → UInt8)) := do
  let (imageSize,records) ← importDelta delta
  let lvSize := max requestedSize imageSize
  if records.any fun r => max lvSize base.size<r.offset+r.data.length then none
  let content := records.foldl writeAllAt base.byte
  return (lvSize,if imageSize<requestedSize then resizeFs content else content)

@[simp] lemma length_toLeBytes (width n : ℕ) : (toLeBytes width n).length = width := by
  induction width generalizing n with
  | zero => rfl
  | succ width ih => rw [toLeBytes,length_cons,ih]

lemma fromLeBytes_toLeBytes {width n : ℕ} (h : n<256^width) : fromLeBytes (toLeBytes width n) = n := by
  induction width generalizing n with
  | zero => exact (Nat.lt_one_iff.mp h).symm
  | succ width ih =>
    have hrest : fromLeBytes (toLeBytes width (n/256)) = n/256 :=
      ih (by rw [Nat.div_lt_iff_lt_mul (by decide),← Nat.pow_succ]; exact h)
    change (UInt8.ofNat n).toNat+256*fromLeBytes (toLeBytes width (n/256)) = n
    rw [hrest,UInt8.toNat_ofNat']
    omega

lemma readDeltaHeader_write {blockSize imageSize : ℕ} (hblock : blockSize<256^4)
    (himage : imageSize<256^8) (rest : List UInt8) :
    readDeltaHeader (writeDeltaHeader blockSize imageSize++rest) = some (blockSize,imageSize) := by
  have hmagic : deltaMagic.length = 8 := rfl
  simp [readDeltaHeader,writeDeltaHeader,deltaHeaderSize,hmagic,drop_append,drop_eq_nil_of_le,
    fromLeBytes_toLeBytes hblock,fromLeBytes_toLeBytes himage]
  omega

lemma readRecords_encode {records : List BlockRecord} {fuel : ℕ}
    (hfuel : (records.flatMap BlockRecord.encode).length ≤ fuel)
    (h : ∀ r∈records, r.offset<256^8 ∧ r.data.length ≤ blockSize) :
    readRecords fuel (records.flatMap BlockRecord.encode) = some records := by
  induction records generalizing fuel with
  | nil => cases fuel <;> rfl
  | cons r records ih =>
    obtain ⟨hoffset,hlength⟩ := h r mem_cons_self
    have hword : r.data.length<256^4 := Nat.lt_of_le_of_lt hlength (by decide)
    rw [flatMap_cons,length_append] at hfuel
    have hhead : r.encode.length = 12+r.data.length := by
      simp [BlockRecord.encode,Nat.add_comm]
    cases fuel with
    | zero => omega
    | succ fuel =>
      have hrest := @ih fuel (by omega) fun r' hr' => h r' (mem_cons_of_mem _ hr')
      simp [readRecords,BlockRecord.encode,drop_append,drop_eq_nil_of_le,hrest,
        fromLeBytes_toLeBytes hoffset,fromLeBytes_toLeBytes hword]
      rw [if_neg (by omega),if_neg (by omega)]

/-- What is imported is what was written. -/
lemma importDelta_write {imageSize : ℕ} (himage : imageSize<256^8) {records : List BlockRecord}
    (h : ∀ r∈records, r.offset<256^8 ∧ r.data.length ≤ blockSize) :
    importDelta (writeDeltaHeader blockSize imageSize++records.flatMap BlockRecord.encode) =
      some (imageSize,records) := by
  have hlength : (writeDeltaHeader blockSize imageSize).length = deltaHeaderSize := by
    simp [writeDeltaHeader,deltaMagic,deltaHeaderSize]
  rw [importDelta,readDeltaHeader_write (by decide) himage,drop_left' hlength,
    readRecords_encode (by simp) h]
  rfl

variable {vm : Device}

/-- The record holds bytes of the device and fits in a block. -/
structure BlockRecord.OfDevice (vm : Device) (r : BlockRecord) : Prop where
  data : ∀ {i}, r.Holds i → r.data.getD (i-r.offset) 0 = vm.byte i
  end_le : r.offset+r.data.length ≤ vm.size
  length_le : r.data.length ≤ blockSize
  offset_lt : r.offset<256^8

lemma rangeRecords_spec {rangeEnd fuel offset : ℕ} (hend : rangeEnd ≤ vm.size)
    (hfuel : rangeEnd ≤ offset+fuel) :
    (∀ r ∈ rangeRecords vm rangeEnd fuel offset, r.OfDevice vm) ∧
      ∀ i, (∃ r ∈ rangeRecords vm rangeEnd fuel offset, r.Holds i) ↔ offset ≤ i ∧ i<rangeEnd := by
  induction fuel generalizing offset with
  | zero =>
    refine ⟨by rintro r ⟨⟩,fun i => ?_⟩
    simp [rangeRecords]
    omega
  | succ fuel ih =>
    unfold rangeRecords
    split_ifs with hmore
    · have hblock : 0<blockSize := by decide
      have hsize : vm.bytes.length<256^8 := vm.size_lt
      change rangeEnd ≤ vm.bytes.length at hend
      generalize hn : min (rangeEnd-offset) blockSize = n
      have hlength : ((vm.bytes.drop offset).take n).length = n := by
        rw [length_take,length_drop]
        omega
      obtain ⟨hdevice,hholds⟩ := @ih (offset+n) (by omega)
      refine ⟨forall_mem_cons.mpr ⟨⟨?_,?_,?_,by dsimp only; omega⟩,hdevice⟩,fun i => ?_⟩
      · rintro i ⟨hle,hlt⟩
        rw [hlength] at hlt
        dsimp only at hle hlt ⊢
        rw [Device.byte,getD_eq_getElem?_getD,getD_eq_getElem?_getD,getElem?_take_of_lt (by omega),
          getElem?_drop,Nat.add_sub_cancel' hle]
      · change offset+((vm.bytes.drop offset).take n).length ≤ vm.bytes.length
        omega
      · rw [hlength,← hn]
        exact Nat.min_le_right _ _
      · simp only [mem_cons,exists_eq_or_imp,hholds]
        simp only [BlockRecord.Holds,hlength]
        omega
    · refine ⟨by rintro r ⟨⟩,fun i => ?_⟩
      simp
      omega

lemma changedRecords_spec (vm : Device) (range : ThinDeltaRange) :
    (∀ r ∈ changedRecords vm range, r.OfDevice vm) ∧
      ∀ i<vm.size, (∃ r ∈ changedRecords vm range, r.Holds i) ↔ range.Covers i := by
  unfold changedRecords ThinDeltaRange.Covers
  split_ifs with hpast
  · refine ⟨by rintro r ⟨⟩,fun i hi => ?_⟩
    simp
    omega
  · obtain ⟨hdevice,hholds⟩ := @rangeRecords_spec vm
      (min (range.byteOffset+range.byteLength) vm.size) range.byteLength range.byteOffset
      (Nat.min_le_right _ _) (Nat.min_le_left _ _)
    refine ⟨hdevice,fun i hi => (hholds i).trans ?_⟩
    omega

lemma foldl_writeAllAt {records : List BlockRecord} (h : ∀ r∈records, r.OfDevice vm)
    (content : ℕ → UInt8) (i : ℕ) : (∃ r∈records, r.Holds i) ∧
        records.foldl writeAllAt content i = vm.byte i ∨
      (¬∃ r∈records, r.Holds i) ∧ records.foldl writeAllAt content i = content i := by
  induction records generalizing content with
  | nil => exact .inr ⟨by simp,rfl⟩
  | cons r records ih =>
    obtain ⟨hr,hrecords⟩ := forall_mem_cons.mp h
    rcases ih hrecords (writeAllAt content r) with ⟨hlater,hbyte⟩ | ⟨hno,hbyte⟩
    · exact .inl ⟨hlater.imp fun r' hr' => ⟨mem_cons_of_mem _ hr'.1,hr'.2⟩,hbyte⟩
    rw [foldl_cons,hbyte,writeAllAt]
    split_ifs with hholds
    · exact .inl ⟨⟨r,mem_cons_self,hholds⟩,hr.data hholds⟩
    · refine .inr ⟨?_,rfl⟩
      simpa [hholds] using hno

/-- A delta that was built is restored, to the image size at least. Before a filesystem is resized, the
device has the bytes of the image exactly if the ranges cover every byte in which the image differs
from the base. -/
theorem delta_restores_iff (resizeFs : (ℕ → UInt8) → ℕ → UInt8) (base vm : Device)
    (requestedSize : ℕ) (ranges : List ThinDeltaRange) :
    ∃ content, createSnapshotFromDelta resizeFs base requestedSize (buildDeltaFromRanges vm ranges) =
        some (max requestedSize vm.size,if vm.size<requestedSize then resizeFs content else content) ∧
      ((∀ i<vm.size, content i = vm.byte i) ↔
        ∀ i<vm.size, vm.byte i ≠ base.byte i → ∃ range∈ranges, range.Covers i) := by
  have hdevice : ∀ r ∈ ranges.flatMap (changedRecords vm), r.OfDevice vm := by
    intro r hr
    obtain ⟨range,-,hr⟩ := mem_flatMap.mp hr
    exact (changedRecords_spec vm range).1 r hr
  have hholds : ∀ i<vm.size, (∃ r ∈ ranges.flatMap (changedRecords vm), r.Holds i) ↔
      ∃ range∈ranges, range.Covers i := by
    intro i hi
    simp only [mem_flatMap,← (changedRecords_spec vm _).2 i hi]
    grind
  unfold buildDeltaFromRanges createSnapshotFromDelta
  generalize ranges.flatMap (changedRecords vm) = records at hdevice hholds ⊢
  have hsize : vm.size<256^8 := vm.size_lt
  rw [importDelta_write hsize fun r hr => ⟨(hdevice r hr).offset_lt,(hdevice r hr).length_le⟩]
  refine ⟨records.foldl writeAllAt base.byte,?_,forall_congr' fun i => forall_congr' fun hi => ?_⟩
  · simp
    intro r hr
    have hend := (hdevice r hr).end_le
    omega
  rw [← hholds i hi]
  rcases foldl_writeAllAt hdevice base.byte i with ⟨hsome,hbyte⟩ | ⟨hnone,hbyte⟩ <;> rw [hbyte]
  · simp [hsome]
  · simp [hnone,eq_comm]

end Indexify.Dataplane.DeltaRestores
