import Indexify.Library.Dict

/-! The index of requests by creation time. Its keys hold the eight bytes of the time as they are, and
the request id is found by splitting the key at the separator. -/
namespace Indexify.RequestListing

/-- A request, with its texts as bytes. -/
structure RequestCtx where
  «namespace» : List UInt8
  applicationName : List UInt8
  createdAt : UInt64
  requestId : List UInt8
  deriving DecidableEq

def separator : UInt8 := 0x7C

def toBeBytes (n : UInt64) : List UInt8 :=
  ([56,48,40,32,24,16,8,0] : List UInt64).map fun shift => (n>>>shift).toUInt8

def RequestCtx.secondaryIndexKey (r : RequestCtx) : List UInt8 :=
  r.namespace++separator::(r.applicationName++separator:: (toBeBytes r.createdAt++separator::r.requestId))

/-- The id as the bytes of the key. The source replaces what is not text, which leaves every id as it
is. -/
def getRequestIdFromSecondaryIndexKey (key : List UInt8) : Option (List UInt8) :=
  (key.splitOn separator)[3]?

def RequestCtx.keyFrom (ns app id : List UInt8) : List UInt8 :=
  ns++separator::(app++separator::id)

def listRequests (rows : Dict (List UInt8) RequestCtx) (ns app : List UInt8)
    (range : List (List UInt8)) : List RequestCtx :=
  (range.filterMap getRequestIdFromSecondaryIndexKey).filterMap fun id =>
    rows.lookup (RequestCtx.keyFrom ns app id)

section
variable {r : RequestCtx} (hns : separator∉r.namespace) (happ : separator∉r.applicationName)
include hns happ

lemma getRequestId_eq : getRequestIdFromSecondaryIndexKey r.secondaryIndexKey =
      ((toBeBytes r.createdAt).splitOn separator++r.requestId.splitOn separator)[1]? := by
  unfold getRequestIdFromSecondaryIndexKey RequestCtx.secondaryIndexKey
  rw [List.splitOn_append_cons_self_of_not_mem hns,List.splitOn_append_cons_self_of_not_mem happ,
    List.splitOn_append_cons_self]
  rfl

lemma getRequestId_iff
    (htime : separator∉toBeBytes r.createdAt) :
    getRequestIdFromSecondaryIndexKey r.secondaryIndexKey = some r.requestId ↔ separator∉r.requestId := by
  rw [getRequestId_eq hns happ,List.splitOn_eq_singleton htime,List.singleton_append,
    List.getElem?_cons_succ]
  refine ⟨fun h hmem => ?_,fun hid => by rw [List.splitOn_eq_singleton hid]; rfl⟩
  obtain ⟨before,after,hid,hbefore⟩ := List.eq_append_cons_of_mem hmem
  rw [hid,List.splitOn_append_cons_self_of_not_mem hbefore] at h
  -- The part before the separator is shorter than the id.
  simp at h

lemma getRequestId_of_mem
    (htime : separator∈toBeBytes r.createdAt) :
    getRequestIdFromSecondaryIndexKey r.secondaryIndexKey =
      ((toBeBytes r.createdAt).splitOn separator)[1]? := by
  rw [getRequestId_eq hns happ]
  obtain ⟨before,after,htime,hbefore⟩ := List.eq_append_cons_of_mem htime
  rw [htime,List.splitOn_append_cons_self_of_not_mem hbefore]
  obtain ⟨part,parts,hparts⟩ := List.exists_cons_of_ne_nil (List.splitOn_ne_nil separator after)
  rw [hparts]
  rfl

end

/-- For a namespace and an application without the separator, all request ids without it are found
exactly if no byte of the time is the separator. The listing then returns every request of the
range. -/
theorem request_found_iff (ns app : List UInt8) (hns : separator∉ns) (happ : separator∉app) :
    (∀ time, (∀ id, separator∉id → getRequestIdFromSecondaryIndexKey
        (RequestCtx.secondaryIndexKey ⟨ns,app,time,id⟩) = some id) ↔ separator∉toBeBytes time) ∧
    (∀ time id, separator∉toBeBytes time → (getRequestIdFromSecondaryIndexKey
        (RequestCtx.secondaryIndexKey ⟨ns,app,time,id⟩) = some id ↔ separator∉id)) ∧
    ∀ (rows : Dict (List UInt8) RequestCtx) (rs : List RequestCtx),
      (∀ r∈rs, r.namespace=ns ∧ r.applicationName=app ∧ separator∉toBeBytes r.createdAt ∧
        separator∉r.requestId ∧ rows.lookup (RequestCtx.keyFrom ns app r.requestId) = some r) →
      listRequests rows ns app (rs.map RequestCtx.secondaryIndexKey) = rs := by
  have hfound (time id) := getRequestId_iff (r := ⟨ns,app,time,id⟩) hns happ
  refine ⟨fun time => ⟨fun h hmem => ?_,fun htime id => (hfound time id htime).2⟩,hfound,
    fun rows rs hrs => ?_⟩
  · -- The empty id and a longer one are read alike.
    have hread (id) := getRequestId_of_mem (r := ⟨ns,app,time,id⟩) hns happ hmem
    have hempty := (hread []).symm.trans (h [] List.not_mem_nil)
    have hlonger := (hread [0]).symm.trans (h [0] (by decide))
    cases hempty.symm.trans hlonger
  · unfold listRequests
    induction rs with
    | nil => rfl
    | cons r rs ih =>
      obtain ⟨⟨rfl,rfl,htime,hid,hrow⟩,hrs⟩ := List.forall_mem_cons.1 hrs
      rw [List.map_cons,List.filterMap_cons_some ((getRequestId_iff hns happ htime).2 hid),
        List.filterMap_cons,hrow,ih hrs]

def sampleRequest (time : UInt64) (requestId : List UInt8) : RequestCtx := ⟨[0x6E],[0x61],time,requestId⟩

def sampleRows (rs : List RequestCtx) : Dict (List UInt8) RequestCtx :=
  Dict.insertAll (fun r => RequestCtx.keyFrom r.namespace r.applicationName r.requestId) ∅ rs

def sampleRequests : List RequestCtx :=
  [sampleRequest 1 [0x72],sampleRequest 0x7B [0x72,0x31],sampleRequest 1700000000000 [0x72,0x32]]

theorem sampleRequests_listed : listRequests (sampleRows sampleRequests) [0x6E] [0x61]
    (sampleRequests.map RequestCtx.secondaryIndexKey) = sampleRequests :=
  (request_found_iff [0x6E] [0x61] (by decide) (by decide)).2.2 _ sampleRequests (by decide)

/-- The last byte of the second time is the separator. The empty text is taken for the id, and the
request is not listed. -/
theorem sampleRequest_not_listed :
    let rs := [sampleRequest 1 [0x72],sampleRequest 0x7C [0x72,0x31]]
    getRequestIdFromSecondaryIndexKey (sampleRequest 0x7C [0x72,0x31]).secondaryIndexKey = some [] ∧
      listRequests (sampleRows rs) [0x6E] [0x61] (rs.map RequestCtx.secondaryIndexKey) =
        [sampleRequest 1 [0x72]] := by
  decide

end Indexify.RequestListing
