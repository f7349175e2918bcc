/-
# A flush while nothing is signed

During an identifier change the security entity refuses to sign (`Muted`). Own
packets that a flush would send are lost; those that greedy forwarding stores
again, as no neighbour is closer to the destination (`Retains`), had room before
and displace none: they are what waits after the flush (`mem_flush_iff`).
-/
import VanetzaIdf.Geonet.Ledger
import VanetzaIdf.SecurityEntity

namespace VanetzaIdf.Geonet.Router

open Security BufferData

variable {env : Environment} {r r₀ : Router Entity} {p : PendingPacket}

/-- There is no security entity, or it signs nothing for now. -/
def Refuses (o : Option Entity) : Prop := ∀ e, o = some e → e.changePending = true

/-- Security is on, and nothing is signed. -/
structure Muted (r : Router Entity) : Prop where
  security : r.mib.itsGnSecurity = true
  refuses : Refuses r.securityEntity

variable {H H' : List ℕ} {rest rest' : ℕ}

theorem muted_act {r r' : Router Entity} (hm : Muted r) (h : Act env H r H' r') :
    Muted r' ∧ ∀ d ∈ r'.requests, d.origin ≠ .other → d ∈ r.requests := by
  have hsec : r'.mib.itsGnSecurity = true := by
    rw [h.keeps.mib]
    exact hm.security
  have hrefuses : Refuses r'.securityEntity :=
    h.entity (fun e q he => (Entity.encapsulatePacket_frame e q).2.1.trans he) hm.refuses
  refine ⟨⟨hsec, hrefuses⟩, ?_⟩
  have hsame : ∀ d ∈ r.requests, d.origin ≠ .other → d ∈ r.requests := fun _ hd _ => hd
  cases h with
  | quiet _ _ _ _ _ hr _ => exact hr ▸ hsame
  | signed e q m d _ he hsome _ _ _ _ _ =>
    have := (Entity.encapsulatePacket_some hsome).1
    simp [hm.refuses e he] at this
  | plain d hoff _ _ => simp [hm.security] at hoff
  | forwarded d ho =>
    intro d' hd' hne
    rcases List.mem_cons.mp hd' with rfl | hd'
    · exact absurd ho hne
    · exact hd'
  | _ => exact hsame

theorem muted_acts {r r' : Router Entity} (hm : Muted r) (h : Acts env H r H' r') :
    ∀ d ∈ r'.requests, d.origin ≠ .other → d ∈ r.requests := by
  have hall : Muted r' ∧ ∀ d ∈ r'.requests, d.origin ≠ .other → d ∈ r.requests := by
    refine h.invariant (I := fun _ u => Muted u ∧ ∀ d ∈ u.requests, d.origin ≠ .other → d ∈ r.requests)
      ⟨hm, fun _ hd _ => hd⟩ ?_
    rintro K u K' v ⟨hu, hd⟩ ha
    obtain ⟨hv, hnew⟩ := muted_act hu ha
    exact ⟨hv, fun d hd' hne => hd d (hnew d hd' hne) hne⟩
  exact hall.2

/-- Greedy forwarding stores the packet: no neighbour is closer to the
destination, and the packet may wait. -/
def greedyStores {S : Type} (env : Environment) (r : Router S) (p : PendingPacket) (area : Area) : Bool :=
  let own := env.distance area.position r.localPositionVector.position
  let mfr := mostForward env r.runtime.now area.position r.locationTable (own, Vector.replicate 6 0)
  !decide (mfr.1 < own) && p.pdu.common.trafficClass.storeCarryForward

/-- The packet is stored when it is processed: a GBC packet of a station
outside the area that forwards greedily. -/
def Retains {S : Type} (env : Environment) (r : Router S) (p : PendingPacket) : Bool :=
  match p.action, p.pdu.extended with
  | .gbc _, .gbc _ _ area =>
    !env.insideOrAtBorder area r.localPositionVector.position &&
      decide (r.mib.itsGnNonAreaForwardingAlgorithm ≠ .cbf) && greedyStores env r p area
  | .greedy _, .gbc _ _ area => greedyStores env r p area
  | _, _ => false

/-! ### One packet -/

theorem secureAndPassDown_muted (hm : Muted r) (ctrl : ControlInfo) (mac : MacAddress) (pdu : Pdu)
    (payload : ByteBuffer) (o : Origin) :
    ∃ x, Refuses x ∧ r.secureAndPassDown ctrl mac pdu payload o = (false, { r with securityEntity := x }) := by
  have h := r.secureAndPassDown_spec ctrl mac pdu payload o
  generalize r.secureAndPassDown ctrl mac pdu payload o = x at h
  cases h with
  | plain hs => simp [hm.security] at hs
  | missing hs he => exact ⟨r.securityEntity, hm.refuses, rfl⟩
  | refused e hs he hn =>
    refine ⟨_, fun e' he' => ?_, rfl⟩
    obtain rfl := Option.some.inj he'
    exact (Entity.encapsulatePacket_frame e _).2.1.trans (hm.refuses e he)
  | signed e m hs he hsome =>
    have := (Entity.encapsulatePacket_some hsome).1
    simp [hm.refuses e he] at this

theorem transmitGbc_muted (hm : Muted r) (p : PendingPacket) (ctrl : ControlInfo) (mac : MacAddress) :
    ∃ x, Refuses x ∧ r.transmitGbc p ctrl mac = { r with securityEntity := x } := by
  obtain ⟨x, hx, he⟩ := secureAndPassDown_muted hm ctrl mac (r.updatedPdu p.pdu) p.payload (.request p.number)
  refine ⟨x, hx, ?_⟩
  unfold transmitGbc
  rw [he]

theorem greedy_muted (env : Environment) (hm : Muted r) (p : PendingPacket) (ctrl : ControlInfo) (area : Area) :
    greedyStores env r p area = true ∧
        processNextHop p ctrl (r.greedyForwarding env p ctrl area) = r.store { p with action := .greedy ctrl } ∨
      greedyStores env r p area = false ∧ ∃ x, Refuses x ∧
        processNextHop p ctrl (r.greedyForwarding env p ctrl area) = { r with securityEntity := x } := by
  unfold greedyForwarding greedyStores
  dsimp only
  split_ifs with h1 h2
  · exact .inr ⟨by simp [h1], transmitGbc_muted hm p ctrl _⟩
  · exact .inl ⟨by simp [h1, h2], rfl⟩
  · exact .inr ⟨by simp [h2], transmitGbc_muted hm p ctrl _⟩

theorem selection_muted (env : Environment) (hm : Muted r) (p : PendingPacket) (ctrl : ControlInfo) (area : Area) :
    let stores := !env.insideOrAtBorder area r.localPositionVector.position &&
      decide (r.mib.itsGnNonAreaForwardingAlgorithm ≠ .cbf) && greedyStores env r p area
    stores = true ∧
        processNextHop p ctrl (r.forwardingAlgorithmSelection env p ctrl area) =
          r.store { p with action := .greedy ctrl } ∨
      stores = false ∧ ∃ x, Refuses x ∧
        processNextHop p ctrl (r.forwardingAlgorithmSelection env p ctrl area) = { r with securityEntity := x } := by
  intro stores
  have hlost := transmitGbc_muted hm p ctrl broadcastMacAddress
  unfold forwardingAlgorithmSelection
  split_ifs with hin
  · refine .inr ⟨by simp [stores, hin], ?_⟩
    split <;> exact hlost
  · have hout : env.insideOrAtBorder area r.localPositionVector.position = false := by simpa using hin
    have hstores : r.mib.itsGnNonAreaForwardingAlgorithm ≠ .cbf → stores = greedyStores env r p area := by
      intro hne
      simp [stores, hout, hne]
    cases hal : r.mib.itsGnNonAreaForwardingAlgorithm with
    | cbf => exact .inr ⟨by simp [stores, hal], hlost⟩
    | unspecified | greedy =>
      rw [hstores (by simp [hal])]
      exact greedy_muted env hm p ctrl area

theorem process_muted (env : Environment) (hm : Muted r) (ho : p.action.own = true) :
    (Retains env r p = true ∧ ∃ ctrl, r.process env p = r.store { p with action := .greedy ctrl }) ∨
      Retains env r p = false ∧ ∃ x, Refuses x ∧ r.process env p = { r with securityEntity := x } := by
  have hsame : ∃ x, Refuses x ∧ r = { r with securityEntity := x } := ⟨r.securityEntity, hm.refuses, rfl⟩
  unfold process Retains
  cases ha : p.action with
  | shb ctrl =>
    obtain ⟨x, hx, he⟩ := secureAndPassDown_muted hm ctrl broadcastMacAddress (r.updatedPdu p.pdu) p.payload
      (.request p.number)
    refine .inr ⟨rfl, x, hx, ?_⟩
    show r.transmitShb env p ctrl = _
    rw [transmitShb_eq, he]
    rfl
  | gbc ctrl =>
    cases hext : p.pdu.extended with
    | gbc n v area =>
      rcases selection_muted env hm p ctrl area with ⟨h1, h2⟩ | ⟨h1, h2⟩
      · exact .inl ⟨h1, ctrl, h2⟩
      · exact .inr ⟨h1, h2⟩
    | shb | tsb | beacon => exact .inr ⟨rfl, hsame⟩
  | greedy ctrl =>
    cases hext : p.pdu.extended with
    | gbc n v area =>
      rcases greedy_muted env hm p ctrl area with ⟨h1, h2⟩ | ⟨h1, h2⟩
      · exact .inl ⟨h1, ctrl, h2⟩
      · exact .inr ⟨h1, h2⟩
    | shb | tsb | beacon => exact .inr ⟨rfl, hsame⟩
  | forward => simp [ha, Action.own] at ho

/-! ### The whole flush -/

/-- Nothing has changed that decides about a packet, what was stored has not expired, and there is
room for `rest` octets more. -/
structure Draining (r₀ : Router Entity) (rest : ℕ) (r : Router Entity) : Prop where
  muted : Muted r
  table : r.locationTable = r₀.locationTable
  keeps : Keeps r₀ r
  buffer : r.bcForwardBuffer.Wf
  unexpired : ∀ x ∈ r.bcForwardBuffer.nodes, x.1.isExpired r₀.runtime.now = false
  room : PacketBuffer.octets r.bcForwardBuffer.nodes + rest ≤ r.bcForwardBuffer.capacity

theorem Draining.retains (hd : Draining r₀ rest r) (p : PendingPacket) : Retains env r p = Retains env r₀ p := by
  unfold Retains greedyStores
  rw [hd.table, hd.keeps.mib, hd.keeps.position, hd.keeps.now]

theorem Draining.store (hd : Draining r₀ (p.length + rest) r) :
    Draining r₀ rest (r.store p) ∧ (r.store p).waitingNumbers = r.waitingNumbers ++ numbersOf [p] := by
  have hnow := hd.keeps.now
  have hroom := hd.room
  have hfits : PacketBuffer.octets r.bcForwardBuffer.nodes + length p ≤ r.bcForwardBuffer.capacity := by
    show _ + p.length ≤ _
    omega
  have hpush := PacketBuffer.push_of_fits hd.buffer (hnow ▸ hd.unexpired) hfits
  have hbuf : (r.store p).bcForwardBuffer = (r.bcForwardBuffer.push p r.runtime.now).2 := rfl
  rw [hpush] at hbuf
  have hlife := LawfulBufferData.reduceLifetime_nonneg p
  refine ⟨⟨⟨hd.muted.security, hd.muted.refuses⟩, hd.table, hd.keeps.trans (.of_runtime rfl rfl rfl), ?_, ?_, ?_⟩, ?_⟩
  · exact hd.buffer.push p r.runtime.now
  · intro x hx
    rw [hbuf] at hx
    rcases List.mem_append.mp hx with hx | hx
    · exact hd.unexpired x hx
    · rw [List.mem_singleton.mp hx, Expiry.isExpired, ← hnow]
      simpa using hlife
  · rw [hbuf]
    show PacketBuffer.octets (_ ++ [_]) + rest ≤ r.bcForwardBuffer.capacity
    rw [PacketBuffer.octets_append, PacketBuffer.octets_cons, LawfulBufferData.length_reduceLifetime]
    show _ + (p.length + 0) + rest ≤ _
    omega
  · unfold waitingNumbers
    rw [hbuf]
    show numbersOf (List.map Prod.snd (_ ++ [_])) = _
    rw [List.map_append, numbersOf_append]
    exact congrArg _ (numbersOf_reduced (fun _ => 0) [(⟨r.runtime.now, 0⟩, p)])

theorem Draining.weaken (hd : Draining r₀ rest r) (h : rest' ≤ rest) : Draining r₀ rest' r :=
  { hd with room := (Nat.add_le_add_left h _).trans hd.room }

theorem Draining.of_buffer (hd : Draining r₀ rest r) (h : rest' ≤ rest) {r' : Router Entity}
    (hm : Muted r') (ht : r'.locationTable = r.locationTable) (hk : Keeps r r')
    (hb : r'.bcForwardBuffer = r.bcForwardBuffer) :
    Draining r₀ rest' r' ∧ r'.waitingNumbers = r.waitingNumbers := by
  refine ⟨⟨hm, ht.trans hd.table, hd.keeps.trans hk, hb ▸ hd.buffer, hb ▸ hd.unexpired, ?_⟩, ?_⟩
  · rw [hb]
    have := hd.room
    omega
  · unfold waitingNumbers
    rw [hb]

theorem draining_own (env : Environment) (hd : Draining r₀ (p.length + rest) r) (ho : p.action.own = true) :
    Draining r₀ rest (r.process env p) ∧ (r.process env p).waitingNumbers =
      r.waitingNumbers ++ if Retains env r₀ p then [p.number] else [] := by
  rcases process_muted env hd.muted ho with ⟨hr, ctrl, he⟩ | ⟨hr, x, hx, he⟩
  · rw [he, ← hd.retains p, if_pos hr]
    exact Draining.store (p := { p with action := .greedy ctrl }) hd
  · rw [he, ← hd.retains p, hr, if_neg Bool.false_ne_true, List.append_nil]
    exact hd.of_buffer (Nat.le_add_left _ _) ⟨hd.muted.security, hx⟩ rfl (.of_runtime rfl rfl rfl) rfl

theorem draining_other (env : Environment) (hd : Draining r₀ (p.length + rest) r) (ho : p.action.own = false) :
    Draining r₀ rest (r.process env p) ∧ (r.process env p).waitingNumbers = r.waitingNumbers := by
  have ha := Action.eq_forward ho
  have hdec : Draining r₀ (p.length + rest) { r with decisions := r.decisions + 1 } ∧
      waitingNumbers { r with decisions := r.decisions + 1 } = r.waitingNumbers :=
    hd.of_buffer le_rfl ⟨hd.muted.security, hd.muted.refuses⟩ rfl (.of_runtime rfl rfl rfl) rfl
  unfold process
  simp only [ha]
  split
  · exact hd.of_buffer (Nat.le_add_left _ _) ⟨hd.muted.security, hd.muted.refuses⟩ rfl (.of_runtime rfl rfl rfl) rfl
  · obtain ⟨h1, h2⟩ := hdec.1.store
    refine ⟨h1, ?_⟩
    rw [h2, numbersOf_other ho, hdec.2]
    exact List.append_nil _
  · exact ⟨hdec.1.weaken (Nat.le_add_left _ _), hdec.2⟩

theorem draining_foldl : ∀ (l : List PendingPacket) {r : Router Entity}, Draining r₀ (l.map (·.length)).sum r →
    (l.foldl (process env) r).waitingNumbers = r.waitingNumbers ++ numbersOf (l.filter (Retains env r₀))
  | [], r, _ => by simp [numbersOf]
  | p :: l, r, hd => by
    rw [List.map_cons, List.sum_cons] at hd
    rw [List.foldl_cons]
    cases ho : p.action.own with
    | true =>
      obtain ⟨h1, h2⟩ := draining_own env hd ho
      rw [draining_foldl l h1, h2, List.append_assoc]
      congr 1
      split_ifs with hr
      · rw [List.filter_cons_of_pos hr, numbersOf_own ho]
        rfl
      · rw [List.filter_cons_of_neg hr]
        rfl
    | false =>
      obtain ⟨h1, h2⟩ := draining_other env hd ho
      rw [draining_foldl l h1, h2]
      congr 1
      by_cases hr : Retains env r₀ p = true
      · rw [List.filter_cons_of_pos hr, numbersOf_other ho]
      · rw [List.filter_cons_of_neg hr]

/-- **What a muted flush leaves.** The own packets that wait afterwards are
those that had not expired and are retained. -/
theorem waitingNumbers_flush (env : Environment) (hm : Muted r) (hw : r.bcForwardBuffer.Wf) :
    (r.flushForwardingBuffers env).waitingNumbers =
      numbersOf ((r.bcForwardBuffer.take r.runtime.now).1.filter (Retains env r)) := by
  have hsum := hw.take_length r.runtime.now
  have hd : Draining r ((r.bcForwardBuffer.take r.runtime.now).1.map (·.length)).sum
      { r with bcForwardBuffer := (r.bcForwardBuffer.take r.runtime.now).2 } := by
    refine ⟨⟨hm.security, hm.refuses⟩, rfl, .of_runtime rfl rfl rfl, .take r.bcForwardBuffer r.runtime.now,
      fun x hx => by simp [PacketBuffer.take] at hx, ?_⟩
    show 0 + _ ≤ r.bcForwardBuffer.capacity
    rw [Nat.zero_add]
    exact hsum
  unfold flushForwardingBuffers
  dsimp only
  rw [draining_foldl _ hd]
  rfl

theorem mem_flush_iff (env : Environment) (hm : Muted r) (hw : r.bcForwardBuffer.Wf) (hl : Ledger H r)
    {x : Expiry × PendingPacket} (hx : x ∈ r.bcForwardBuffer.nodes) (ho : x.2.action.own = true)
    (hexp : x.1.isExpired r.runtime.now = false) :
    x.2.number ∈ (r.flushForwardingBuffers env).waitingNumbers ↔ Retains env r x.2 = true := by
  -- no other packet in the buffer has its number
  have hinj : ∀ y ∈ r.bcForwardBuffer.nodes, y.2.action.own = true → y.2.number = x.2.number → y.2 = x.2 := by
    intro y hy hoy hn
    have hnodup : r.waitingNumbers.Nodup :=
      List.nodup_iff_count_le_one.mpr fun n => (Nat.le_add_left _ _).trans (hl.once n)
    have hmem : ∀ z ∈ r.bcForwardBuffer.nodes, z.2.action.own = true →
        z.2 ∈ r.bcForwardBuffer.packets.filter (·.action.own) :=
      fun z hz hoz => List.mem_filter.mpr ⟨List.mem_map_of_mem hz, hoz⟩
    exact List.inj_on_of_nodup_map hnodup (hmem y hy hoy) (hmem x hx ho) hn
  have hret : ∀ (q : PendingPacket) (d : Duration), Retains env r (reduceLifetime q d).2 = Retains env r q := by
    intro q d
    obtain ⟨l, hq⟩ := q.reduceLifetime_cases d
    rw [hq]
    rfl
  rw [waitingNumbers_flush env hm hw, mem_numbersOf]
  constructor
  · rintro ⟨q, hq, hoq, hn⟩
    obtain ⟨hq, hr⟩ := List.mem_filter.mp hq
    obtain ⟨y, hy, rfl⟩ := List.mem_map.mp hq
    obtain ⟨l, hlt⟩ := y.2.reduceLifetime_cases (r.runtime.now - y.1.bufferedSince)
    rw [hlt] at hoq hn
    rw [hret] at hr
    rwa [← hinj y (List.mem_filter.mp hy).1 hoq hn]
  · intro hr
    obtain ⟨l, hlt⟩ := x.2.reduceLifetime_cases (r.runtime.now - x.1.bufferedSince)
    refine ⟨(reduceLifetime x.2 (r.runtime.now - x.1.bufferedSince)).2, List.mem_filter.mpr ⟨?_, ?_⟩, ?_, ?_⟩
    · exact List.mem_map.mpr ⟨x, List.mem_filter.mpr ⟨hx, by simp [hexp]⟩, rfl⟩
    · rw [hret]
      exact hr
    · rw [hlt]
      exact ho
    · rw [hlt]
      rfl

end VanetzaIdf.Geonet.Router
