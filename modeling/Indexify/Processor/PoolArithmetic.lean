import Indexify.Processor.BufferReconciler

/-! The sizes of a pool in the words of the server, which add modulo 2^32 in a release build,
against the sizes over the natural numbers. -/
namespace Indexify

lemma wrappingAdd_eq {a b : ℕ} (h : a+b<2^32) : wrappingAdd a b = a+b :=
  Nat.mod_eq_of_lt h

namespace ContainerPool

def validate (p : ContainerPool) : Except String Unit :=
  if p.max < p.min then
    .error s!"min_containers ({p.min}) cannot exceed max_containers ({p.max})"
  else if p.max<p.buffer then
    .error s!"buffer_containers ({p.buffer}) cannot exceed max_containers ({p.max})"
  else if p.image="" ∧ p.isFunctionPool=false then .error "image is required"
  else if p.resources.cpuMsPerSec=0 then .error "cpu must be greater than 0"
  else if p.resources.memoryMb=0 then .error "memory must be greater than 0"
  else .ok ()

/-- The size that a pool with a given buffer is kept at, over the natural numbers. -/
def exactLimit (p : ContainerPool) (active buffer : ℕ) : ℕ :=
  Nat.min (Nat.max (active+buffer) p.min) p.max

/-- No sum of the sizes of a pool leaves the words. -/
structure NoWrap (p : ContainerPool) (active idle : ℕ) : Prop where
  total : active+idle<2^32
  target : ∀ b, p.bufferContainers = some b → active+b<2^32

variable {p : ContainerPool} {active idle : ℕ} (h : p.NoWrap active idle)
include h

/-- Without a set buffer the idle containers take its place in a trim. -/
lemma effectiveLimit_eq :
    p.effectiveLimit active idle = p.exactLimit active (p.bufferContainers.getD idle) := by
  unfold effectiveLimit exactLimit
  cases hb : p.bufferContainers with
  | none => simp only [wrappingAdd_eq h.total,Option.getD_none]
  | some b => simp only [wrappingAdd_eq (h.target b hb),Option.getD_some]

lemma deficit_eq : p.deficit active idle = p.exactLimit active p.buffer-(active+idle) := by
  have hbuffer : active+p.buffer<2^32 := by
    unfold buffer
    cases hb : p.bufferContainers with
    | none => have := h.total; rw [Option.getD_none]; omega
    | some b => exact h.target b hb
  simp only [deficit,exactLimit,wrappingAdd_eq hbuffer,wrappingAdd_eq h.total]

lemma excess_eq : p.excess active idle =
    Nat.min (active+idle-p.exactLimit active (p.bufferContainers.getD idle)) idle := by
  simp only [excess,effectiveLimit_eq h,wrappingAdd_eq h.total]
  split_ifs with htrim
  · rfl
  · simp only [Nat.min_def]
    split_ifs <;> omega

omit h

lemma exactLimit_mono {b b' : ℕ} (hle : b≤b') : p.exactLimit active b ≤ p.exactLimit active b' :=
  min_le_min (max_le_max (by omega) le_rfl) le_rfl

lemma NoWrap.lower {b b' : ℕ} (h : p.NoWrap active idle) (hb : p.bufferContainers = some b')
    (hle : b≤b') : {p with bufferContainers := some b}.NoWrap active idle where
  total := h.total
  target := fun c hc => by
    have := h.target b' hb
    have : b=c := Option.some.inj hc
    omega

/-- As long as no sum wraps, the limit of a trim and the deficit are the exact values, where a trim
of a pool without a set buffer keeps its idle containers, and raising a set buffer never terminates
more of them. -/
theorem pool_sizes_exact (p : ContainerPool) (active idle : ℕ) (h : p.NoWrap active idle) :
    p.effectiveLimit active idle = p.exactLimit active (p.bufferContainers.getD idle) ∧
    p.deficit active idle = p.exactLimit active p.buffer-(active+idle) ∧
    ∀ b b', p.bufferContainers = some b' → b≤b' →
      p.excess active idle ≤ {p with bufferContainers := some b}.excess active idle := by
  refine ⟨effectiveLimit_eq h,deficit_eq h,fun b b' hb hle => ?_⟩
  rw [excess_eq h,excess_eq (h.lower hb hle),hb,Option.getD_some,Option.getD_some]
  have hlimit : p.exactLimit active b ≤ p.exactLimit active b' := exactLimit_mono hle
  exact min_le_min (Nat.sub_le_sub_left hlimit _) le_rfl

def sandboxPool (buffer : Option ℕ) : ContainerPool :=
  ⟨⟨"pool"⟩,"default",.sandbox,"image",⟨1000,512,0,none⟩,none,none,[],0,none,none,buffer⟩

/-- Three containers are active and four idle. A buffer of two lets a trim terminate two of them, a
buffer of one would let it terminate three, and without a buffer it keeps all. -/
theorem smallPools_exact :
    (sandboxPool (some 2)).effectiveLimit 3 4 = 5 ∧ (sandboxPool (some 2)).excess 3 4 = 2 ∧
    (sandboxPool (some 2)).excess 3 4 ≤ (sandboxPool (some 1)).excess 3 4 ∧
    (sandboxPool none).effectiveLimit 3 4 = 7 := by
  have hset := pool_sizes_exact (sandboxPool (some 2)) 3 4
    ⟨by decide,fun b hb => by cases hb; decide⟩
  have hunset := pool_sizes_exact (sandboxPool none) 3 4 ⟨by decide,fun b hb => by cases hb⟩
  exact ⟨hset.1.trans (by decide),by decide,hset.2.2 1 2 rfl (by decide),hunset.1.trans (by decide)⟩

/-- The buffer is not set, and one container is active. -/
theorem unset_buffer_keeps_idle : (sandboxPool none).validate = .ok () ∧
    (sandboxPool none).effectiveLimit 1 5 = 6 ∧
    (sandboxPool none).exactLimit 1 (sandboxPool none).buffer = 1 := by
  decide

-- the target of a large buffer wraps to zero, and the five idle containers go
example : (sandboxPool (some (2^32-1))).validate = .ok () ∧
    (sandboxPool (some (2^32-1))).effectiveLimit 1 5 = 0 ∧
    (sandboxPool (some (2^32-1))).excess 1 5 = 5 ∧ (sandboxPool (some 5)).excess 1 5 = 0 := by
  decide

end ContainerPool
end Indexify
