import Indexify.Library.Paths
import Indexify.Dataplane.Uploads

/-! Where the keys of the request state lie. A key is percent-encoded into the last segment of the
URI of its blob, and a file URI is read as a path. -/
namespace Indexify.Dataplane.StateKeys
open List Paths

def localPath (uri : String) : List Char :=
  if "file://".toList <+: uri.toList then uri.toList.drop 7 else uri.toList

def encodeByte (b : UInt8) : List Char :=
  if isUnreserved b then [Char.ofNat b.toNat]
  else ['%',hexDigit (b.toNat/16),hexDigit (b.toNat%16)]

def safeKey (stateKey : String) : List Char := stateKey.toUTF8.data.toList.flatMap encodeByte

lemma toList_loop (bytes : ByteArray) (i : ℕ) (done : List UInt8) :
    ByteArray.toList.loop bytes i done = done.reverse++bytes.data.toList.drop i := by
  induction i, done using ByteArray.toList.loop.induct bytes with
  | case1 i done hi ih =>
    have hlength : i<bytes.data.toList.length := by rwa [Array.length_toList]
    have hbyte : bytes.get! i = bytes.data.toList[i] := getElem!_pos bytes.data i hi
    rw [ByteArray.toList.loop,if_pos hi,ih,reverse_cons,append_assoc,singleton_append,hbyte,
      ← drop_eq_getElem_cons hlength]
  | case2 i done hi =>
    have hlength : bytes.data.toList.length ≤ i := by rwa [Array.length_toList,← not_lt]
    rw [ByteArray.toList.loop,if_neg hi,drop_eq_nil_of_le hlength,append_nil]

lemma requestStateKeyBlobUri_eq (uriPrefix stateKey : String) :
    requestStateKeyBlobUri uriPrefix stateKey = uriPrefix++"/state/"++.ofList (safeKey stateKey) := by
  unfold requestStateKeyBlobUri ByteArray.toList
  rw [toList_loop]
  rfl

/-! ### Keys apart -/

def hexValue (c : Char) : ℕ := if c.toNat<58 then c.toNat-48 else c.toNat-55

def decode : List Char → List UInt8
  | '%'::hi::lo::cs => .ofNat (hexValue hi*16+hexValue lo)::decode cs
  | c::cs => .ofNat c.toNat::decode cs
  | [] => []

lemma hexDigit_spec : ∀ n<16, hexValue (hexDigit n) = n ∧ hexDigit n≠ '/' := by decide

lemma decode_encodeByte (b : UInt8) (cs : List Char) : decode (encodeByte b++cs) = b::decode cs := by
  have hb : b.toNat<256 := b.toNat_lt
  unfold encodeByte
  split_ifs with hplain
  · have hchar : (Char.ofNat b.toNat).toNat = b.toNat := by
      rw [Char.ofNat,dif_pos (.inl (by omega))]
      rfl
    rw [singleton_append,decode,hchar,UInt8.ofNat_toNat]
    intro hi lo cs' hpercent
    unfold isUnreserved at hplain
    rw [hpercent] at hplain
    simp at hplain
  · change UInt8.ofNat _::decode cs = _
    rw [(hexDigit_spec _ (by omega)).1,(hexDigit_spec _ (by omega)).1,Nat.div_add_mod',UInt8.ofNat_toNat]

lemma decode_flatMap (bytes : List UInt8) : decode (bytes.flatMap encodeByte) = bytes := by
  induction bytes with
  | nil => rfl
  | cons b bytes ih => rw [flatMap_cons,decode_encodeByte,ih]

lemma safeKey_injective : Function.Injective safeKey := by
  intro k k' h
  have hbytes := congrArg decode h
  unfold safeKey at hbytes
  rw [decode_flatMap,decode_flatMap] at hbytes
  exact String.toByteArray_inj.1 (ByteArray.ext (Array.toList_inj.1 hbytes))

/-! ### Keys in their directory -/

lemma slash_notMem_encodeByte (b : UInt8) : '/'∉encodeByte b := by
  have hb : b.toNat<256 := b.toNat_lt
  unfold encodeByte
  split_ifs with hplain
  · intro hmem
    unfold isUnreserved at hplain
    rw [← mem_singleton.1 hmem] at hplain
    simp at hplain
  · have hhigh := (hexDigit_spec (b.toNat/16) (by omega)).2
    have hlow := (hexDigit_spec (b.toNat%16) (by omega)).2
    simp [hhigh.symm,hlow.symm]

lemma slash_notMem_safeKey (stateKey : String) : '/'∉safeKey stateKey := by
  intro hmem
  obtain ⟨b,-,hb⟩ := mem_flatMap.1 hmem
  exact slash_notMem_encodeByte b hb

lemma localPath_uri (uriPrefix stateKey : String) :
    localPath (requestStateKeyBlobUri uriPrefix stateKey) =
      localPath (uriPrefix++"/state")++ '/'::safeKey stateKey ∧ localPath (uriPrefix++"/state")≠[] := by
  have huri : (requestStateKeyBlobUri uriPrefix stateKey).toList =
      (uriPrefix++"/state").toList++ '/'::safeKey stateKey := by
    simp [requestStateKeyBlobUri_eq]
  have hscheme : "file://".toList <+: (uriPrefix++"/state").toList++ '/'::safeKey stateKey ↔
      "file://".toList <+: (uriPrefix++"/state").toList := by
    refine ⟨fun h => ?_,fun h => h.trans (prefix_append _ _)⟩
    cases hchars : uriPrefix.toList with
    | nil => simp [hchars] at h
    | cons c cs =>
      refine prefix_of_prefix_length_le h (prefix_append _ _) ?_
      simp [hchars]
  unfold localPath
  rw [huri]
  simp only [hscheme]
  split_ifs with hfile
  · have hlong := hfile.length_le
    refine ⟨drop_append_of_le_length hlong,fun h => ?_⟩
    -- Nothing is left only of the scheme itself, which ends in a slash.
    have hbare := hfile.eq_of_length_le (drop_eq_nil_iff.1 h)
    have hlast := congrArg getLast? hbare
    simp at hlast
  · exact ⟨rfl,by simp⟩

/-- For every prefix, different keys have different URIs, and the URI of a key names a location below
the directory of the state exactly if the key is not empty, `.` or `..`. -/
theorem key_below_state_iff (uriPrefix : String) :
    Function.Injective (requestStateKeyBlobUri uriPrefix) ∧ ∀ cwd stateKey,
      Below (locate cwd (localPath (uriPrefix++"/state")))
          (locate cwd (localPath (requestStateKeyBlobUri uriPrefix stateKey))) ↔
        stateKey≠"" ∧ stateKey≠"." ∧ stateKey≠".." := by
  refine ⟨fun k k' h => ?_,fun cwd stateKey => ?_⟩
  · have hlists := congrArg String.toList h
    simp only [requestStateKeyBlobUri_eq,String.toList_append,String.toList_ofList,append_cancel_left_eq] at hlists
    exact safeKey_injective hlists
  · obtain ⟨huri,hdir⟩ := localPath_uri uriPrefix stateKey
    rw [huri,locate_append hdir (slash_notMem_safeKey stateKey),below_enter_iff]
    have hempty : safeKey "" = [] := rfl
    have hdot : safeKey "." = ['.'] := by decide
    have hdots : safeKey ".." = ['.','.'] := by decide
    rw [← hdots,← hdot,← hempty]
    simp only [ne_eq,safeKey_injective.eq_iff]

/-- The key `..` names the directory above the state, and the key `.` the directory itself. -/
theorem dots_leave_state :
    locate [] (localPath (requestStateKeyBlobUri "file:///blobs" "..")) = ["blobs".toList] ∧
      locate [] (localPath (requestStateKeyBlobUri "file:///blobs" ".")) =
        locate [] (localPath ("file:///blobs"++"/state")) ∧
      locate [] (localPath ("file:///blobs"++"/state")) = ["blobs".toList,"state".toList] := by
  simp only [requestStateKeyBlobUri_eq]
  decide

end Indexify.Dataplane.StateKeys
