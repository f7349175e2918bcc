/-
# Layer views

Under any sequence of `set_boundary`, `trim` and copies, the views of the layers
are consecutive parts of the buffer. `serialize` of `net/packet_variant.cpp`
writes the whole buffer, with what was cut from the end and belongs to no layer
any more (`trimmed_octets_serialized`).
-/
import VanetzaIdf.Geonet.Wire.CohesivePacket
import VanetzaIdf.Lib.Run

namespace VanetzaIdf.Geonet.Wire

open Lib List Option

def osiLayers : List OsiLayer := [.physical, .link, .network, .transport, .session, .presentation, .application]

namespace CohesivePacket

/-- The constructor: all octets belong to the layer. -/
def construct (buffer : ByteBuffer) (layer : OsiLayer) : CohesivePacket :=
  ⟨buffer, fun l => if l.index < layer.index then 0 else buffer.length⟩

/-- `size()`. -/
def total (p : CohesivePacket) : ℕ := p.ends .application

/-- `rebuild_iterators`, which moves on by the lengths of the other packet's layers. -/
def rebuildIterators (other : CohesivePacket) (ends : OsiLayer → ℕ) : OsiLayer → ℕ :=
  (osiLayers.foldl (fun (m : (OsiLayer → ℕ) × ℤ) l =>
    let next := m.2 + (other.ends l - other.start l : ℤ)
    (Function.update m.1 l next.toNat, next)) (ends, 0)).1

def copy (other : CohesivePacket) (ends : OsiLayer → ℕ) : CohesivePacket := ⟨other.buffer, other.rebuildIterators ends⟩

def serialize (p : CohesivePacket) : ByteBuffer := p.buffer

def views (p : CohesivePacket) : ByteBuffer := osiLayers.flatMap p.layer

inductive Operation
  | setBoundary (layer : OsiLayer) (bytes : ℕ)
  | trim (lowest : OsiLayer) (bytes : ℕ)
  | copy (ends : OsiLayer → ℕ)

def step (p : CohesivePacket) : Operation → Option CohesivePacket
  | .setBoundary layer bytes => p.setBoundary layer bytes
  | .trim lowest bytes => some (p.trim lowest bytes)
  | .copy ends => some (p.copy ends)

/-- The call cuts nothing from the end. -/
def Spares (p : CohesivePacket) : Operation → Prop
  | .setBoundary layer bytes => layer = .application → bytes = p.size layer layer
  | .trim lowest bytes => p.size lowest .application ≤ bytes
  | .copy _ => True

/-- Boundaries in their order, inside the buffer. -/
structure Ordered (p : CohesivePacket) : Prop where
  start_le : ∀ l, p.start l ≤ p.ends l
  total_le : p.total ≤ p.buffer.length

variable {p q : CohesivePacket}

theorem ordered_iff : p.Ordered ↔ p.ends .physical ≤ p.ends .link ∧ p.ends .link ≤ p.ends .network ∧
    p.ends .network ≤ p.ends .transport ∧ p.ends .transport ≤ p.ends .session ∧ p.ends .session ≤ p.ends .presentation ∧
    p.ends .presentation ≤ p.ends .application ∧ p.ends .application ≤ p.buffer.length := by
  constructor
  · intro h
    exact ⟨h.start_le .link, h.start_le .network, h.start_le .transport, h.start_le .session, h.start_le .presentation,
      h.start_le .application, h.total_le⟩
  · rintro ⟨h2, h3, h4, h5, h6, h7, hle⟩
    refine ⟨fun l => ?_, hle⟩
    cases l
    · exact Nat.zero_le _
    all_goals assumption

theorem ordered_construct (buffer : ByteBuffer) (layer : OsiLayer) : (construct buffer layer).Ordered := by
  rw [ordered_iff]
  cases layer <;> simp [construct, OsiLayer.index]

theorem copy_eq (p : CohesivePacket) (ends : OsiLayer → ℕ) : p.copy ends = p := by
  refine congrArg (CohesivePacket.mk _) (funext fun l => ?_)
  cases l <;> simp [rebuildIterators, osiLayers, start, OsiLayer.below, Function.update]

theorem Ordered.setBoundary (h : p.Ordered) {l : OsiLayer} {bytes : ℕ} (hq : p.setBoundary l bytes = some q) :
    q.Ordered := by
  unfold CohesivePacket.setBoundary at hq
  split_ifs at hq with hbytes
  obtain rfl := some.inj hq
  rw [ordered_iff] at *
  cases l <;> simp [start, size, OsiLayer.below, Function.update] at * <;> omega

theorem Ordered.trim (h : p.Ordered) (l : OsiLayer) (bytes : ℕ) : (p.trim l bytes).Ordered := by
  unfold CohesivePacket.trim
  split_ifs with hcut
  · rw [ordered_iff] at *
    cases l <;> simp [start, size, OsiLayer.below, OsiLayer.index] at * <;> omega
  · exact h

theorem Ordered.step (h : p.Ordered) (o : Operation) (hq : p.step o = some q) : q.Ordered := by
  cases o with
  | setBoundary layer bytes => exact h.setBoundary hq
  | trim lowest bytes => exact some.inj hq ▸ h.trim lowest bytes
  | copy ends => exact some.inj hq ▸ (p.copy_eq ends).symm ▸ h

theorem Ordered.take_append_layer (h : p.Ordered) (k l : OsiLayer) (hstart : p.start l = p.ends k) :
    p.buffer.take (p.ends k) ++ p.layer l = p.buffer.take (p.ends l) := by
  have hbelow : p.buffer.take (p.ends k) = (p.buffer.take (p.ends l)).take (p.start l) := by
    rw [take_take, min_eq_left (h.start_le l), hstart]
  rw [hbelow, layer, take_append_drop]

theorem Ordered.views_eq (h : p.Ordered) : p.views = p.buffer.take p.total := by
  have hphysical : p.layer .physical = p.buffer.take (p.ends .physical) := rfl
  simp only [views, osiLayers, flatMap_cons, flatMap_nil, append_nil, ← append_assoc]
  rw [hphysical, h.take_append_layer .physical .link rfl, h.take_append_layer .link .network rfl,
    h.take_append_layer .network .transport rfl, h.take_append_layer .transport .session rfl,
    h.take_append_layer .session .presentation rfl, h.take_append_layer .presentation .application rfl]
  rfl

theorem total_step (h : p.Ordered) (htotal : p.total = p.buffer.length) (o : Operation) (ho : p.Spares o)
    (hq : p.step o = some q) : q.total = q.buffer.length := by
  cases o with
  | setBoundary layer bytes =>
    have hq : p.setBoundary layer bytes = some q := hq
    unfold setBoundary at hq
    split_ifs at hq
    obtain rfl := some.inj hq
    by_cases hlayer : layer = .application
    · subst hlayer
      have hstart := h.start_le .application
      have hbytes : bytes = p.total - p.start .application := ho rfl
      simp only [total, Function.update_self] at *
      omega
    · exact (Function.update_of_ne (Ne.symm hlayer) _ _).trans htotal
  | trim lowest bytes =>
    obtain rfl := some.inj hq
    rw [trim, if_neg (not_lt.mpr ho)]
    exact htotal
  | copy ends =>
    obtain rfl := some.inj hq
    rw [copy_eq]
    exact htotal

/-- **The layers of a packet under every sequence of operations.** -/
theorem layer_views {buffer : ByteBuffer} {layer : OsiLayer} {p : CohesivePacket}
    (h : Run step Anything (construct buffer layer) p) :
    (∀ l, p.start l ≤ p.ends l ∧ p.ends l ≤ p.buffer.length) ∧
      (∀ ends l, (p.copy ends).layer l = p.layer l) ∧
      p.views.length = p.total ∧
      (p.serialize = p.views ↔ p.total = p.buffer.length) ∧
      (Run step Spares (construct buffer layer) p → p.serialize = p.views ∧ p.serialize.length = p.total) := by
  have hreach : ∀ {C} {q : CohesivePacket}, Run step C (construct buffer layer) q → q.Ordered := fun h =>
    h.invariant (ordered_construct buffer layer) fun o hu _ hs => hu.step o hs
  have hordered := hreach h
  have hviews := hordered.views_eq
  have hserialize : p.serialize = p.views ↔ p.total = p.buffer.length := by
    rw [hviews]
    constructor
    · intro heq
      have hlength := congrArg List.length heq
      rw [length_take, min_eq_left hordered.total_le] at hlength
      exact hlength.symm
    · intro heq
      rw [heq, take_length]
      rfl
  refine ⟨fun l => ⟨hordered.start_le l, ?_⟩, fun ends l => by rw [copy_eq], ?_, hserialize, fun hspares => ?_⟩
  · have hchain := ordered_iff.mp hordered
    cases l <;> omega
  · rw [hviews, length_take, min_eq_left hordered.total_le]
  · have htotal : p.total = p.buffer.length := by
      refine hspares.invariant_under hreach ?_ fun o hu htotal ho hs => total_step hu htotal o ho hs
      cases layer <;> simp [total, construct, OsiLayer.index]
    exact ⟨hserialize.mpr htotal, htotal.symm⟩

theorem layer_views_network :
    (∃ p, Run step Spares (construct [1, 2, 3] .network) p ∧ p.serialize = p.views ∧
      p.layer .network = [1] ∧ p.layer .transport = [2, 3]) := by
  have hspared : Run step Spares (construct [1, 2, 3] .network) _ :=
    (Run.refl.tail (.setBoundary .network 1) (fun h => nomatch h) rfl).tail (.copy fun _ => 0) trivial rfl
  have h := layer_views (hspared.mono fun _ _ _ => trivial)
  exact ⟨_, hspared, (h.2.2.2.2 hspared).1, by decide, by decide⟩

/-- Of three octets one is left, and three are written. -/
theorem trimmed_octets_serialized :
    (∃ p, Run step Anything (construct [1, 2, 3] .network) p ∧ p.views = [1] ∧ p.total = 1 ∧ p.serialize = [1, 2, 3]) ∧
      ¬ ∀ (buffer : ByteBuffer) (layer : OsiLayer) (p : CohesivePacket), Run step Anything (construct buffer layer) p →
        p.serialize = p.views := by
  have hrun : Run step Anything (construct [1, 2, 3] .network) _ := Run.refl.tail (.trim .network 1) trivial rfl
  exact ⟨⟨_, hrun, by decide, by decide, rfl⟩, fun h => absurd (h _ _ _ hrun) (by decide)⟩

end CohesivePacket
end VanetzaIdf.Geonet.Wire
