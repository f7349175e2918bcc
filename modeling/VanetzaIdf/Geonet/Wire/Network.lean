/-
# A network of routers

What one router hands to the access layer the others may receive, in any order,
late, repeatedly or not at all, besides whatever anybody else puts on the air.
Every copy on the air goes back to a packet that was put there, over as many
copies that routers of the network handed over as its hop limit has become
smaller (`network_copies`). So no packet circulates for ever.
-/
import VanetzaIdf.Geonet.Wire.Forwarded

namespace VanetzaIdf.Geonet.Wire

open Lib List

variable {ι M E R κ : Type} [SecuredCodec M]

theorem BasicHeader.append_inj {h h' : BasicHeader} {rest rest' : ByteBuffer}
    (heq : h.serialize ++ rest = h'.serialize ++ rest') : h = h' ∧ rest = rest' := by
  have hread := BasicHeader.fixed.reads h () rest
  rw [heq, BasicHeader.fixed.reads h' () rest', Option.some.injEq, Prod.mk.injEq, Prod.mk.injEq] at hread
  exact ⟨hread.1.symm, hread.2.1.symm⟩

/-- The octets of a copy; its network layer is the PDU. -/
def Handed.octets (x : Handed M) : ByteBuffer := x.pdu.serialize ++ x.packet.upper

/-- What is read as a message comes first in the octets. -/
def Canonical (M : Type) [SecuredCodec M] : Prop :=
  ∀ (b : ByteBuffer) (m : M), ({ input := b } : Parser).parseSecured.1 = some m → SecuredCodec.serialize m <+: b

theorem Handed.octets_front {x : Handed M} {b : ByteBuffer} (h : IsReceived b x.origin) :
    ∃ rest rest', b = x.origin.pdu.basic.serialize ++ rest ∧ x.octets = x.pdu.basic.serialize ++ rest' ∧
      (Canonical M → rest' <+: rest) := by
  obtain ⟨rest, hb, hrest⟩ := h
  refine ⟨rest, _, hb, append_assoc _ _ _, fun hcanonical => ?_⟩
  rw [x.isCopy.payload, x.isCopy.secured, x.isCopy.common, x.isCopy.extended]
  cases hsec : x.origin.pdu.secured with
  | some m =>
    rw [hsec] at hrest
    simpa using hcanonical rest m hrest
  | none =>
    rw [hsec] at hrest
    obtain ⟨trailing, rfl, -⟩ := hrest
    exact ⟨trailing, by simp⟩

/-- The copies that a router has put on the air. -/
def Router.copies (r : Router M E R κ) : List (Handed M) := r.outputs.filterMap fun | .handed x => some x | _ => none

omit [SecuredCodec M] in
theorem Router.mem_copies {r : Router M E R κ} {x : Handed M} : x ∈ r.copies ↔ .handed x ∈ r.outputs := by
  grind [Router.copies]

variable {net net' : ι → Router M E R κ} {s b : ByteBuffer} {n : ℕ}

/-- `b` is what has become of `s` after `n` relays: each is a copy of the packet
before that a router of the network has handed over. -/
inductive Relayed (net : ι → Router M E R κ) (s : ByteBuffer) : ℕ → ByteBuffer → Prop
  | sent : Relayed net s 0 s
  | again {n : ℕ} {b : ByteBuffer} (i : ι) (x : Handed M) : Relayed net s n b → x ∈ (net i).copies →
    IsReceived b x.origin → Relayed net s (n + 1) x.octets

theorem Relayed.mono (hgrow : ∀ i, (net i).copies ⊆ (net' i).copies) (h : Relayed net s n b) : Relayed net' s n b := by
  induction h with
  | sent => exact .sent
  | again i x _ hx hreceived ih => exact ih.again i x (hgrow i hx) hreceived

/-- A packet after `n` hops. -/
structure After (M : Type) [SecuredCodec M] (n : ℕ) (basic : BasicHeader) (rest : ByteBuffer) (basic' : BasicHeader)
    (rest' : ByteBuffer) : Prop where
  hopLimit : basic'.hopLimit.toNat + n = basic.hopLimit.toNat
  basic : basic' = { basic with hopLimit := basic'.hopLimit, lifetime := basic'.lifetime }
  front : Canonical M → rest' <+: rest

theorem Relayed.after (h : Relayed net s n b) : ∀ {basic' : BasicHeader} {rest' : ByteBuffer},
    b = basic'.serialize ++ rest' → ∃ basic rest, s = basic.serialize ++ rest ∧ After M n basic rest basic' rest' := by
  induction h with
  | sent => exact fun hb => ⟨_, _, hb, rfl, rfl, fun _ => prefix_rfl⟩
  | again i x _ _ hreceived ih =>
    intro basic' rest' hb
    obtain ⟨rest₀, rest₁, hb₀, hb₁, hfront⟩ := Handed.octets_front hreceived
    obtain ⟨rfl, rfl⟩ := BasicHeader.append_inj (hb.symm.trans hb₁)
    obtain ⟨basic, rest, hs, hafter⟩ := ih hb₀
    refine ⟨basic, rest, hs, ?_, ?_, fun hc => (hfront hc).trans (hafter.front hc)⟩
    · have hhop := x.isCopy.hopLimit
      have hbefore := hafter.hopLimit
      omega
    · nth_rewrite 1 [x.isCopy.basic]
      rw [hafter.basic]

/-! ### Runs of the network -/

variable [DecidableEq ι] [CbfCounter κ] [Decapsulation E M R] {env : ι → Environment} {S : ByteBuffer → Prop}
  {start : ι → Router M E R κ}

/-- Somebody has put the octets on the air, or a router its copy. -/
def OnAir (S : ByteBuffer → Prop) (net : ι → Router M E R κ) (b : ByteBuffer) : Prop :=
  S b ∨ ∃ i, ∃ x ∈ (net i).copies, b = x.octets

/-- Routers take turns; what is indicated to one is on the air. -/
inductive Network (env : ι → Environment) (S : ByteBuffer → Prop) (start : ι → Router M E R κ) :
    (ι → Router M E R κ) → Prop
  | start : Network env S start start
  | step {net : ι → Router M E R κ} (i : ι) (e : Router.Event E) : Network env S start net →
    (∀ physical link b ll, e = .indicate physical link b ll → OnAir S net b) →
    Network env S start (Function.update net i ((net i).step (env i) e))

/-- What the packet was received as goes back to the sources. -/
def Sourced (S : ByteBuffer → Prop) (net : ι → Router M E R κ) (o : Received M) : Prop :=
  ∃ s n b, S s ∧ Relayed net s n b ∧ IsReceived b o

theorem Router.copies_step (env : Environment) (r : Router M E R κ) (e : Event E) :
    r.copies ⊆ (r.step env e).copies := by
  have htraced := (closed_traced env (admits_copiesOf fun _ : Received M => True)).step
    (traced_waits r fun _ _ => trivial) e fun _ _ => trivial
  obtain ⟨fresh, hfresh, -⟩ := htraced.outputs
  intro x hx
  rw [mem_copies, hfresh]
  exact mem_append_left _ (mem_copies.mp hx)

theorem Network.traced (hstart : ∀ i, (start i).outputs = [] ∧ ∀ o, ¬ (start i).Waits o)
    (h : Network env S start net) (i : ι) :
    (net i).Traced [] (Sourced S net) (Router.CopiesOf (Sourced S net)) := by
  induction h generalizing i with
  | start =>
    have htraced := Router.traced_waits (K := Sourced S start) (start i) fun o ho => absurd ho ((hstart i).2 o)
    rwa [(hstart i).1] at htraced
  | @step net j e _ he ih =>
    have hgrow : ∀ k, (net k).copies ⊆ (Function.update net j ((net j).step (env j) e) k).copies := by
      intro k
      by_cases hkj : k = j
      · subst hkj
        rw [Function.update_self]
        exact Router.copies_step (env k) (net k) e
      · rw [Function.update_of_ne hkj]
        exact List.Subset.refl _
    have hmono : ∀ o, Sourced S net o → Sourced S (Function.update net j ((net j).step (env j) e)) o :=
      fun o ⟨s, n, b, hS, hrun, hb⟩ => ⟨s, n, b, hS, hrun.mono hgrow, hb⟩
    have hbefore := (ih i).mono hmono
    by_cases hij : i = j
    · subst hij
      rw [Function.update_self]
      refine (Router.closed_traced (env i) (Router.admits_copiesOf _)).step hbefore e ?_
      rintro o ⟨physical, link, b, ll, rfl, hreceived⟩
      rcases he _ _ _ _ rfl with hS | ⟨k, x, hx, rfl⟩
      · exact ⟨b, 0, b, hS, .sent, hreceived⟩
      · obtain ⟨fresh, hfresh, hcopies⟩ := (ih k).outputs
        have hmem := Router.mem_copies.mp hx
        rw [hfresh] at hmem
        obtain ⟨s, n, b, hS, hrun, hb⟩ := hcopies _ hmem x rfl
        exact hmono o ⟨s, n + 1, _, hS, hrun.again k x hx hb, hreceived⟩
    · rw [Function.update_of_ne hij]
      exact hbefore

/-- **Copies on the air.** What a router of the network hands over is a packet that was put on the
air, after as many relays by routers of the network as its hop limit has become smaller. -/
theorem network_copies (hstart : ∀ i, (start i).outputs = [] ∧ ∀ o, ¬ (start i).Waits o) (h : Network env S start net)
    {i : ι} {x : Handed M} (hx : x ∈ (net i).copies) :
    ∃ n basic rest rest', S (basic.serialize ++ rest) ∧ Relayed net (basic.serialize ++ rest) (n + 1) x.octets ∧
      x.octets = x.pdu.basic.serialize ++ rest' ∧ 0 < x.pdu.basic.hopLimit.toNat ∧
      After M (n + 1) basic rest x.pdu.basic rest' := by
  obtain ⟨fresh, hfresh, hcopies⟩ := (h.traced hstart i).outputs
  have hmem := Router.mem_copies.mp hx
  rw [hfresh] at hmem
  obtain ⟨s, n, b, hS, hrun, hb⟩ := hcopies _ hmem x rfl
  have hrelayed := hrun.again i x hx hb
  obtain ⟨_, rest', -, hoctets, -⟩ := Handed.octets_front hb
  obtain ⟨basic, rest, rfl, hafter⟩ := hrelayed.after hoctets
  exact ⟨n, basic, rest, rest', hS, hrelayed, hoctets, x.isCopy.hopLimit_pos, hafter⟩

def sampleAir : ByteBuffer := Router.sampleTsb.serialize ++ [7, 8, 9]

def sampleHears (b : ByteBuffer) : Router SampleMessage Unit Unit CbfCounterContending :=
  (sampleRouter {}).step sampleSurroundings (.indicate [] [] b sampleLink)

/-- Two routers and one packet. -/
def SampleNetwork : (Bool → Router SampleMessage Unit Unit CbfCounterContending) → Prop :=
  Network (fun _ => sampleSurroundings) (· = sampleAir) fun _ => sampleRouter {}

/-- One router relays the packet, and the other one relays its copy. -/
theorem network_copies_tsb : Canonical SampleMessage ∧ ∃ net, SampleNetwork net ∧
    ∃ x ∈ (net true).copies, x.pdu.basic.hopLimit = 3 ∧ Relayed net sampleAir 2 x.octets := by
  have hcanonical : Canonical SampleMessage := by
    intro b m h
    simp only [Parser.parseSecured, SecuredCodec.deserializeV2, SecuredCodec.deserializeV3] at h
    obtain rfl : m = ⟨b⟩ := by grind
    exact prefix_rfl
  have hhears : ∀ {net} i b, SampleNetwork net → net i = sampleRouter {} → OnAir (· = sampleAir) net b →
      SampleNetwork (Function.update net i (sampleHears b)) := by
    intro net i b h hi hb
    have hstep := h.step i (.indicate [] [] b sampleLink) (by
      rintro _ _ _ _ ⟨⟩
      exact hb)
    rwa [hi] at hstep
  have hcopy : ((sampleHears sampleAir).copies.map Handed.octets).headD [] ∈ (sampleHears sampleAir).copies.map
    Handed.octets := by
    decide +kernel
  obtain ⟨x, hx, hoctets⟩ := mem_map.mp hcopy
  have hnet := hhears true x.octets (hhears false _ .start rfl (.inl rfl)) rfl (.inr ⟨false, x, hx, rfl⟩)
  refine ⟨hcanonical, _, hnet, ?_⟩
  have hrelayed : 3 ∈ (sampleHears x.octets).copies.map (·.pdu.basic.hopLimit) := by
    rw [hoctets]
    decide +kernel
  obtain ⟨y, hy, hlimit⟩ := mem_map.mp hrelayed
  refine ⟨y, hy, hlimit, ?_⟩
  have hempty : ∀ o, ¬ (sampleRouter {}).Waits o := by
    rintro o (⟨_, hp, -⟩ | ⟨_, hp, -⟩ | ⟨_, hp, -⟩) <;> exact absurd hp not_mem_nil
  obtain ⟨n, basic, rest, _, hS, hrun, -, -, hafter⟩ := network_copies (i := true) (fun _ => ⟨rfl, hempty⟩) hnet hy
  have hair : sampleAir = Router.sampleTsb.basic.serialize ++ sampleAir.drop 4 := by decide +kernel
  obtain ⟨rfl, -⟩ := BasicHeader.append_inj (hS.trans hair)
  have hhops := hafter.hopLimit
  rw [hlimit] at hhops
  obtain rfl : n = 1 := by
    have hfive : (3 : UInt8).toNat + (n + 1) = 5 := hhops
    have hthree : (3 : UInt8).toNat = 3 := rfl
    omega
  exact hS ▸ hrun

end VanetzaIdf.Geonet.Wire
