/-
# Capacity of the contention buffer

`add` drops packets from the head while the count with the new one is above the
capacity, and then looks for a packet of the same identifier. So a packet longer
than the buffer is stored once all others are gone, and packets are dropped for
a duplicate that is not stored (`capacity_not_kept`). `capacity_kept_iff` says
in which runs neither happens.
-/
import VanetzaIdf.Geonet.CbfLedger

namespace VanetzaIdf.Geonet.CbfPacketBuffer

open BufferData CbfData Lib

variable {α κ : Type} [CbfData α] [CbfCounter κ]

/-! ### Head drop -/

section HeadDrop

variable {ps qs : List α} {id : CbfPacketIdentifier}

theorem octets_le_of_suffix (h : qs <:+ ps) : octets qs ≤ octets ps := by
  obtain ⟨before, rfl⟩ := h
  rw [octets_append]
  exact Nat.le_add_left _ _

theorem headDrop_spec {extra : ℕ} {ps : List α} {b : CbfPacketBuffer α κ} (hstored : b.stored = octets ps + extra) :
    (octets (b.headDrop ps).packets + extra ≤ b.capacity ∨ (b.headDrop ps).packets = []) ∧
      ∀ qs, qs <:+ ps → octets qs + extra ≤ b.capacity → qs <:+ (b.headDrop ps).packets := by
  fun_induction headDrop with
  | case1 => exact ⟨.inr rfl, fun _ hqs _ => hqs⟩
  | case2 b p ps hfull ih =>
    rw [octets_cons] at hstored
    obtain ⟨hroom, hlongest⟩ := ih (by simp only; omega)
    refine ⟨hroom, fun qs hqs hfits => ?_⟩
    rcases List.suffix_cons_iff.mp hqs with rfl | hqs
    · -- all packets do not fit
      rw [octets_cons] at hfits
      omega
    · exact hlongest qs hqs hfits
  | case3 b p ps hroom => exact ⟨.inl (by simp only; omega), fun _ hqs _ => hqs⟩

theorem makeRoom_spec {b : CbfPacketBuffer α κ} (h : b.stored = octets b.packets) (packet : α) :
    (octets (b.makeRoom packet).packets + length packet ≤ b.capacity ∨ (b.makeRoom packet).packets = []) ∧
      ∀ qs, qs <:+ b.packets → octets qs + length packet ≤ b.capacity → qs <:+ (b.makeRoom packet).packets :=
  headDrop_spec (b := { b with stored := b.stored + length packet }) (by simp only [h])

def onward (ps : List α) (id : CbfPacketIdentifier) : List α := ps.dropWhile (identifier · ≠ id)

theorem mem_onward (h : id ∈ ps.map identifier) : id ∈ (onward ps id).map identifier := by
  obtain ⟨p, hp, rfl⟩ := List.mem_map.mp h
  unfold onward
  rw [← List.takeWhile_append_dropWhile (p := (identifier · ≠ identifier p)) (l := ps)] at hp
  rcases List.mem_append.mp hp with hbefore | honward
  · simpa using List.mem_takeWhile_imp hbefore
  · exact List.mem_map_of_mem honward

theorem onward_suffix (hunique : (ps.map identifier).Nodup) (hqs : qs <:+ ps) (h : id ∈ qs.map identifier) :
    onward ps id <:+ qs := by
  obtain ⟨before, rfl⟩ := hqs
  rw [List.map_append] at hunique
  have hbefore : ∀ p ∈ before, decide (identifier p ≠ id) = true := by
    intro p hp
    have hne := (List.nodup_append.mp hunique).2.2 (identifier p) (List.mem_map_of_mem hp) id h
    exact decide_eq_true hne
  unfold onward
  rw [List.dropWhile_append_of_pos hbefore]
  exact List.dropWhile_suffix _

end HeadDrop

/-! ### Capacity -/

/-- The operation stays within the capacity, and drops nothing for a packet that
it does not store. -/
def Keeps (b : CbfPacketBuffer α κ) (capacity : ℕ) (e : Event α) : Prop :=
  octets (b.step e).2.packets ≤ capacity ∧
    ∀ packet timeout allocator, e = .add packet timeout allocator → (b.step e).1.timer = none →
      (b.step e).2.packets = b.packets

/-- The packet is not longer than the buffer, and if its identifier is there, it has room beside
all packets, or so little that this one is dropped too. -/
def Roomy (b : CbfPacketBuffer α κ) : Event α → Prop
  | .add packet timeout _ =>
    0 < timeout → length packet ≤ b.capacity ∧
      (identifier packet ∈ b.packets.map identifier →
        octets b.packets + length packet ≤ b.capacity ∨
          b.capacity < octets (onward b.packets (identifier packet)) + length packet)
  | _ => True

section Step

variable {b : CbfPacketBuffer α κ} {timeout : Duration} {packet : α} {allocator : Allocator}

theorem step_add_timer (hwf : b.Wf) (packet : α) (ht : 0 < timeout) (allocator : Allocator) :
    (b.step (.add packet timeout allocator)).1.timer = none ↔
      identifier packet ∈ (b.makeRoom packet).packets.map identifier := by
  have hany := (makeRoom_matched hwf packet).1.any_iff (identifier packet)
  rw [← hany]
  unfold step
  dsimp only
  by_cases h : (b.makeRoom packet).timers.any (·.id = identifier packet) = true
  · simp [h]
  · simp [h, not_le.mpr ht]

theorem step_add_packets (hwf : b.Wf) (packet : α) (ht : 0 < timeout) (allocator : Allocator) :
    (b.step (.add packet timeout allocator)).2.packets = (b.makeRoom packet).packets ++
      if identifier packet ∈ (b.makeRoom packet).packets.map identifier then [] else [packet] := by
  have hany := (makeRoom_matched hwf packet).1.any_iff (identifier packet)
  show (b.add packet timeout allocator).packets = _
  rw [add_packets, if_neg (not_le.mpr ht)]
  simp only [hany]

theorem roomy_of_keeps (hwf : b.Wf) (hstored : b.stored = octets b.packets)
    (h : b.Keeps b.capacity (.add packet timeout allocator)) : b.Roomy (.add packet timeout allocator) := by
  intro ht
  obtain ⟨hroom, hlongest⟩ := makeRoom_spec hstored packet
  obtain ⟨hle, hsame⟩ := h
  have hsame := hsame packet timeout allocator rfl
  rw [step_add_packets hwf packet ht, octets_append] at hle
  refine ⟨?_, fun hdup => ?_⟩
  · rcases hroom with hroom | hnil
    · omega
    · rw [hnil, List.map_nil, if_neg List.not_mem_nil] at hle
      have hone : octets [packet] = length packet := rfl
      omega
  · by_contra hnot
    obtain ⟨hfull, hreach⟩ := not_or.mp hnot
    -- head drop stops before the packet of this identifier, after it dropped others
    have honward : onward b.packets (identifier packet) <:+ (b.makeRoom packet).packets :=
      hlongest _ (List.dropWhile_suffix _) (not_lt.mp hreach)
    have hthere : identifier packet ∈ (b.makeRoom packet).packets.map identifier :=
      (honward.map identifier).subset (mem_onward hdup)
    have hpackets := hsame ((step_add_timer hwf packet ht allocator).mpr hthere)
    rw [step_add_packets hwf packet ht, if_pos hthere, List.append_nil] at hpackets
    rcases hroom with hroom | hnil
    · rw [hpackets] at hroom
      exact hfull hroom
    · rw [hnil] at hthere
      exact List.not_mem_nil hthere

theorem keeps_of_roomy (hwf : b.Wf) (hstored : b.stored = octets b.packets) (hle : octets b.packets ≤ b.capacity)
    (h : b.Roomy (.add packet timeout allocator)) :
    b.Keeps b.capacity (.add packet timeout allocator) := by
  by_cases ht : timeout ≤ 0
  · have hnothing : (b.step (.add packet timeout allocator)).2 = b := if_pos ht
    unfold Keeps
    rw [hnothing]
    exact ⟨hle, fun _ _ _ _ _ => rfl⟩
  have hpos : 0 < timeout := not_le.mp ht
  obtain ⟨hlength, hdup⟩ := h hpos
  obtain ⟨hroom, hlongest⟩ := makeRoom_spec hstored packet
  have hsuffix := (b.makeRoom_frame packet).1
  have hfits : octets (b.makeRoom packet).packets + length packet ≤ b.capacity := by
    rcases hroom with hroom | hnil
    · exact hroom
    · rw [hnil]
      show 0 + length packet ≤ b.capacity
      omega
  refine ⟨?_, fun packet' timeout' allocator' heq hnone => ?_⟩
  · rw [step_add_packets hwf packet hpos, octets_append]
    split_ifs
    · show _ + 0 ≤ b.capacity
      omega
    · exact hfits
  · have hthere := (step_add_timer hwf packet hpos allocator).mp hnone
    rw [step_add_packets hwf packet hpos, if_pos hthere, List.append_nil]
    rcases hdup ((hsuffix.map identifier).subset hthere) with hall | hreach
    · exact hsuffix.eq_of_length_le (hlongest _ (List.suffix_refl _) hall).length_le
    · have honward := octets_le_of_suffix (onward_suffix hwf.packets_unique hsuffix hthere)
      omega

variable [LawfulCbfData α]

theorem step_octets_le (hwf : b.Wf) (e : Event α) :
    octets (b.step e).2.packets ≤ octets b.packets + octets e.brings := by
  obtain ⟨l, hperm, hsub⟩ := step_tags length LawfulBufferData.length_reduceLifetime hwf e
  have hsum := hsub.sum_le_sum fun _ _ => Nat.zero_le _
  rw [hperm.sum_eq, List.sum_append, List.sum_append] at hsum
  have hle : octets (b.step e).2.packets ≤ _ := Nat.le_trans (Nat.le_add_left _ _) hsum
  exact hle

theorem step_keeps_iff (hwf : b.Wf) (hstored : b.stored = octets b.packets) (hle : octets b.packets ≤ b.capacity)
    (e : Event α) : b.Keeps b.capacity e ↔ b.Roomy e := by
  have hother (h : e.brings = []) (hadd : ∀ packet timeout allocator, e ≠ .add packet timeout allocator) :
    b.Keeps b.capacity e := by
    have hstep := step_octets_le hwf e
    rw [h] at hstep
    exact ⟨hstep.trans hle, fun packet timeout allocator heq => absurd heq (hadd packet timeout allocator)⟩
  cases e with
  | add packet timeout allocator => exact ⟨roomy_of_keeps hwf hstored, keeps_of_roomy hwf hstored hle⟩
  | remove | update | fetch | fire | outside => exact ⟨fun _ => trivial, fun _ => hother rfl nofun⟩

end Step

/-! ### Runs -/

variable [LawfulCbfData α]

theorem along_keeps_iff : ∀ (es : List (Event α)) {b : CbfPacketBuffer α κ}, b.Wf →
    Books (.anything κ) (fun _ => 0) b → octets b.packets ≤ b.capacity →
      (Along step (fun b' e => b'.Keeps b.capacity e) b es ↔ Along step Roomy b es)
  | [], _, _, _, _ => Iff.rfl
  | e :: es, b, hwf, hbooks, hle => by
    have hiff := step_keeps_iff hwf hbooks.stored hle e
    have hnext := hbooks.step hwf e
    have hbooks' : Books (.anything κ) (fun _ => 0) (b.step e).2 := ⟨hnext.2.unique, hnext.2.stored, trivial⟩
    have hcap := (b.step_frame e).1
    constructor
    · rintro ⟨hkeeps, hrest⟩
      refine ⟨hiff.mp hkeeps, (along_keeps_iff es (hwf.step e) hbooks' (hkeeps.1.trans hcap.ge)).mp ?_⟩
      rwa [hcap]
    · rintro ⟨hroomy, hrest⟩
      have hkeeps := hiff.mpr hroomy
      refine ⟨hkeeps, ?_⟩
      have hrest' := (along_keeps_iff es (hwf.step e) hbooks' (hkeeps.1.trans hcap.ge)).mpr hrest
      rwa [hcap] at hrest'

def created (α : Type) {κ : Type} (counter : κ) (capacity : ℕ) (runtime : SharedRuntime) : CbfPacketBuffer α κ :=
  { counter, capacity, runtime }

/-- **The contention buffer keeps to its capacity**, and drops no packet in vain,
in exactly those runs in which every packet that is added has room. -/
theorem capacity_kept_iff (capacity : ℕ) (counter : κ) (runtime : SharedRuntime) (es : List (Event α)) :
    Along step (fun b e => b.Keeps capacity e) (created α counter capacity runtime) es ↔
      Along step Roomy (created α counter capacity runtime) es :=
  along_keeps_iff es (b := created α counter capacity runtime) ⟨List.Pairwise.nil, List.nodup_nil, List.Perm.refl _⟩
    ⟨List.nodup_nil, rfl, trivial⟩ (Nat.zero_le _)

def twoPackets : List (Event CbfPacket) :=
  [.add (samplePacket 1 ⟨.oneSecond, 60⟩) 100000 sampleAllocator, .add (samplePacket 2 ⟨.oneSecond, 60⟩)
    100000 sampleAllocator]

theorem capacity_kept_two :
    Along step (fun b e => b.Keeps 120 e) (created CbfPacket ({} : CbfCounterContending) 120 { now := 0 }) twoPackets :=
  (capacity_kept_iff 120 ({} : CbfCounterContending) { now := 0 } twoPackets).mpr
    ⟨fun _ => ⟨by decide +kernel, fun h => absurd h (by decide +kernel)⟩,
      fun _ => ⟨by decide +kernel, fun h => absurd h (by decide +kernel)⟩, trivial⟩

/-- **The capacity is exceeded**, by a packet of 176 octets in a buffer of 120; and **packets are
dropped in vain**, for a duplicate that is not stored. -/
theorem capacity_not_kept :
    (∃ es : List (Event CbfPacket),
      120 < octets (final step (created CbfPacket ({} : CbfCounterContending) 120 { now := 0 }) es).packets) ∧
    ∃ (es : List (Event CbfPacket)) (packet : CbfPacket),
      let b := final step (created CbfPacket ({} : CbfCounterContending) 120 { now := 0 }) es
      (b.step (.add packet 100000 sampleAllocator)).1.timer = none ∧
        ∃ p ∈ b.packets, p ∉ (b.step (.add packet 100000 sampleAllocator)).2.packets := by
  refine ⟨⟨[.add ⟨PacketBuffer.sampleLong 120, Vector.replicate 6 2⟩ 100000 sampleAllocator], by decide +kernel⟩,
    twoPackets, samplePacket 2 ⟨.oneSecond, 60⟩, by decide +kernel, samplePacket 1 ⟨.oneSecond, 60⟩, ?_, ?_⟩
  · decide +kernel
  · decide +kernel

end VanetzaIdf.Geonet.CbfPacketBuffer
