/-
What the batch paths offer to the socket, and that they do no more than send it.

Both batch paths plan a list of packets with consecutive numbers, reserve credit for all of
it and protect all of it.  A batch of PTO probes uses up the numbers of the packets that the
socket took (`SendsBatch`), a batch of application packets those of the packets that were
protected (`SendsAll`).
-/
import Netz.Proofs.Send

namespace Netz.Quic

open List PreparedPacket

namespace Sender

variable {B : Type} {s t u : Sender B}

/-! ### Planning and protecting a batch -/

lemma shortPacket_size (s : Sender B) (packetNumber packetNumberLen : Nat) (payload : Bytes) :
    (s.shortPacket packetNumber packetNumberLen payload).size =
      s.sizeOf packetNumberLen payload := by
  simp [ShortPacket.size, Sender.sizeOf, ShortPacket.length, ShortPacket.overhead, shortPacket]

/-- The packets `sealed` are an initial part of what was planned. -/
structure SealsPlan (s t : Sender B) (sealed : List ShortPacket) (numbers : List Nat)
    (sizes : List PacketSize) : Prop where
  seals : Seals s t sealed
  numbers : sealed.map ShortPacket.packetNumber <+: numbers
  sizes : sealed.map ShortPacket.size <+: sizes

lemma Quiet.sealsPlan (h : Quiet s t) (numbers : List Nat) (sizes : List PacketSize) :
    SealsPlan s t [] numbers sizes :=
  ⟨h.seals, nil_prefix, nil_prefix⟩

lemma SealsPlan.cons {sealed : List ShortPacket} {numbers : List Nat} {sizes : List PacketSize}
    (hquiet : Quiet s t) {packetNumber packetNumberLen : Nat} {payload : Bytes}
    (h : SealsPlan (t.sealShortPacket packetNumber packetNumberLen payload) u sealed numbers sizes) :
    SealsPlan s u (t.shortPacket packetNumber packetNumberLen payload :: sealed)
      (packetNumber :: numbers) (s.sizeOf packetNumberLen payload :: sizes) where
  seals := (hquiet.seals.trans (sealShortPacket_seals t packetNumber packetNumberLen payload)).trans
    h.seals
  numbers := by
    have : (t.shortPacket packetNumber packetNumberLen payload).packetNumber = packetNumber := rfl
    rw [map_cons, this, prefix_cons_inj]
    exact h.numbers
  sizes := by
    rw [map_cons, shortPacket_size, hquiet.sizeOf, prefix_cons_inj]
    exact h.sizes

lemma range'_of_initial {xs : List Nat} {start len : Nat} (h : xs <+: range' start len) :
    xs = range' start xs.length := by
  obtain ⟨ys, h⟩ := h
  obtain ⟨n, -, rfl, -⟩ := range'_eq_append_iff.mp h.symm
  rw [length_range']

/-- The numbers of what was protected, when those of the plan are consecutive. -/
theorem SealsPlan.consecutive {sealed : List ShortPacket} {sizes : List PacketSize} {start len : Nat}
    (h : SealsPlan s t sealed (range' start len) sizes) :
    sealed.map ShortPacket.packetNumber = range' start sealed.length := by
  have := range'_of_initial h.numbers
  rwa [length_map] at this

section Batch

variable (k : Books B)

/-! ### PTO probes -/

/-- The probes are numbered one after the other and sized as they will be protected. -/
structure ProbesPlanned (s : Sender B) (probes : List PreparedProbe) : Prop where
  numbers : probes.map PreparedProbe.packetNumber = range' s.nextPacketNumber probes.length
  sizes : ∀ p ∈ probes, p.size = s.sizeOf p.packetNumberLen p.candidate.payload
  small : ∀ p ∈ probes, p.packetNumber ≤ maxPacketNumber

lemma planProbes_planned (first nowNs fuel : Nat) (probes planned : List PreparedProbe)
    (hprobes : ProbesPlanned s probes)
    (h : s.planProbes k first nowNs fuel probes = .ok planned) : ProbesPlanned s planned := by
  induction fuel generalizing probes with
  | zero =>
    injection h with h
    exact h ▸ hprobes
  | succ fuel ih =>
    unfold planProbes at h
    split at h
    · injection h with h
      exact h ▸ hprobes
    simp only at h
    split at h
    · cases h
    rename_i packetLen hlen
    split at h
    · cases h
    split at h
    · split at h
      · cases h
      · injection h with h
        exact h ▸ hprobes
    split at h
    · split at h
      · cases h
      · injection h with h
        exact h ▸ hprobes
    refine ih _ ⟨?_, ?_, ?_⟩ h
    · rw [map_append, hprobes.numbers, length_append, length_singleton,
        range'_concat]
      simp
    · refine forall_mem_append.mpr ⟨hprobes.sizes, forall_mem_singleton.mpr ?_⟩
      simp [PreparedProbe.size, Sender.sizeOf, shortPacketLen_ok hlen]
    · exact forall_mem_append.mpr
        ⟨hprobes.small, forall_mem_singleton.mpr (shortPacketLen_number hlen)⟩

lemma probesPayloadLen_eq (probes : List PreparedProbe) :
    probesPayloadLen probes = payloadTotal (probes.map PreparedProbe.size) := by
  simp [probesPayloadLen, payloadTotal, PreparedProbe.size, Function.comp_def]

lemma sealProbes_length (probes : List PreparedProbe) (h : (s.sealProbes probes).1 = none) :
    (s.sealProbes probes).2.1.length = probes.length := by
  induction probes generalizing s with
  | nil => rfl
  | cons probe rest ih =>
    unfold sealProbes at h ⊢
    rcases hprep : s.prepareAeadForEncryption probe.packetNumber with ⟨result, s₁⟩
    rw [hprep] at h
    cases result with
    | error e => cases h
    | ok _ => simp [ih h]

lemma sealProbes_seals (probes : List PreparedProbe)
    (hsizes : ∀ p ∈ probes, p.size = s.sizeOf p.packetNumberLen p.candidate.payload) :
    SealsPlan s (s.sealProbes probes).2.2 (s.sealProbes probes).2.1
      (probes.map PreparedProbe.packetNumber) (probes.map PreparedProbe.size) := by
  induction probes generalizing s with
  | nil => exact (Quiet.refl s).sealsPlan _ _
  | cons probe rest ih =>
    unfold sealProbes
    have hkeys := prepareAeadForEncryption_quiet s probe.packetNumber
    rcases hprep : s.prepareAeadForEncryption probe.packetNumber with ⟨result, s₁⟩
    rw [hprep] at hkeys
    cases result with
    | error e => exact hkeys.sealsPlan _ _
    | ok _ =>
      rw [map_cons, map_cons, hsizes probe (mem_cons_self ..)]
      refine SealsPlan.cons hkeys (ih fun p hp => ?_)
      rw [hsizes p (mem_cons_of_mem _ hp)]
      exact (hkeys.sizeOf _ _).symm

/-- How many packets can be protected before an acknowledgement must allow new keys. -/
def aeadBudget (s : Sender B) : Nat :=
  s.config.aeadConfidentialityLimit - s.sendKeyGenerationEncryptedPackets +
    (if s.pendingKeyUpdateAckThreshold = none then s.config.aeadConfidentialityLimit else 0)

lemma prepareAeadForEncryption_budget (packetNumber packetNumberLen : Nat) (payload : Bytes)
    (hbudget : 0 < s.aeadBudget) :
    (s.prepareAeadForEncryption packetNumber).1 = .ok () ∧
      s.aeadBudget ≤ ((s.prepareAeadForEncryption packetNumber).2.sealShortPacket packetNumber
        packetNumberLen payload).aeadBudget + 1 := by
  unfold aeadBudget at hbudget
  unfold prepareAeadForEncryption
  by_cases hlow : s.sendKeyGenerationEncryptedPackets < s.config.aeadConfidentialityLimit
  · rw [if_pos hlow]
    refine ⟨rfl, ?_⟩
    unfold aeadBudget sealShortPacket saturatingAdd
    simp only
    omega
  rw [if_neg hlow]
  have hnone : s.pendingKeyUpdateAckThreshold = none := by
    by_contra hsome
    rw [if_neg hsome] at hbudget
    omega
  rw [if_pos hnone] at hbudget
  rw [if_neg (by rw [hnone]; simp; omega)]
  refine ⟨rfl, ?_⟩
  unfold aeadBudget sealShortPacket saturatingAdd advanceSendKeyPhase
  simp only [hnone, if_true]
  omega

lemma sealProbes_within_budget (probes : List PreparedProbe)
    (hbudget : probes.length ≤ s.aeadBudget) : (s.sealProbes probes).1 = none := by
  induction probes generalizing s with
  | nil => rfl
  | cons probe rest ih =>
    rw [length_cons] at hbudget
    obtain ⟨hok, hleft⟩ := prepareAeadForEncryption_budget probe.packetNumber
      probe.packetNumberLen probe.candidate.payload (Nat.lt_of_lt_of_le (Nat.succ_pos _) hbudget)
    unfold sealProbes
    rcases hprep : s.prepareAeadForEncryption probe.packetNumber with ⟨result, s₁⟩
    rw [hprep] at hok hleft
    simp only at hok hleft
    subst hok
    exact ih (by omega)

lemma sealProbes_no_budget (probes : List PreparedProbe) (hbudget : s.aeadBudget = 0) :
    (s.sealProbes probes).2.1 = [] := by
  cases probes with
  | nil => rfl
  | cons probe rest =>
    unfold aeadBudget at hbudget
    have hfull : ¬ s.sendKeyGenerationEncryptedPackets < s.config.aeadConfidentialityLimit := by
      omega
    have hstop : s.config.aeadConfidentialityLimit = 0 ∨ s.pendingKeyUpdateAckThreshold ≠ none := by
      by_contra hcan
      rw [not_or, not_not] at hcan
      rw [if_pos hcan.2] at hbudget
      omega
    simp [hfull, hstop, sealProbes, prepareAeadForEncryption]

/-- The allocator gives up before anything is protected, or the socket takes the whole batch,
which the AEAD limit does not interrupt. -/
def TakesBatch (s : Sender B) (count : Nat) (delivery : BatchDelivery) : Prop :=
  delivery = .outOfMemory ∨
    ((∃ sentCount sendError, delivery = .progress sentCount sendError ∧ count ≤ sentCount) ∧
      (count ≤ s.aeadBudget ∨ s.aeadBudget = 0))

/-- A batch whose packet numbers are used up as far as the socket took it. -/
def SendsBatch (s t : Sender B) (offer : List PacketSize) (delivery : BatchDelivery) : Prop :=
  ∃ sealed sent, Sends s t sealed sent offer ∧
    t.nextPacketNumber = s.nextPacketNumber + sent.length ∧
    (s.TakesBatch offer.length delivery → sealed = sent)

lemma Quiet.sendsBatch (h : Quiet s t) (offer : List PacketSize) (delivery : BatchDelivery) :
    SendsBatch s t offer delivery :=
  ⟨[], [], h.sends offer, h.next, fun _ => rfl⟩

variable {bytes : Nat} {sealed : List ShortPacket} {probes : List PreparedProbe}
  {result : Option Error} {packets : List PreparedPacket}

lemma reserveAntiAmplification_budget (hlim : s.WithinLimit)
    (h : s.reserveAntiAmplification bytes = .ok t) : t.aeadBudget = s.aeadBudget := by
  rcases reserveAntiAmplification_ok hlim h with ⟨-, rfl⟩ | ⟨-, -, rfl⟩
  · rfl
  · rfl

/-- Credit that is given back at once. -/
theorem reserve_release_quiet (hlim : s.WithinLimit)
    (h : s.reserveAntiAmplification bytes = .ok t) (books : B) :
    Quiet s (({ t with books := books } : Sender B).releaseAntiAmplification bytes) := by
  unfold releaseAntiAmplification
  rcases reserveAntiAmplification_ok hlim h with ⟨hv, rfl⟩ | ⟨hv, -, rfl⟩
  · simp only [hv]
    exact ⟨rfl, rfl, rfl, hv.symm, rfl, rfl⟩
  · simp only [hv]
    exact ⟨rfl, rfl, rfl, hv.symm, rfl, Nat.add_sub_cancel _ _⟩

lemma abandonProbes_sends (hlim : s.WithinLimit)
    (h : Protected s t sealed (probes.map PreparedProbe.size)) (a : Attempt) :
    Sends s (t.abandonProbes k probes a) sealed [] (probes.map PreparedProbe.size) ∧
      (t.abandonProbes k probes a).nextPacketNumber = s.nextPacketNumber := by
  have hsends := h.abandon hlim
  rw [← probesPayloadLen_eq] at hsends
  refine ⟨hsends.quiet (Quiet.books _ _), ?_⟩
  show (t.releaseAntiAmplification _).nextPacketNumber = _
  rw [(releaseAntiAmplification_wire _ _).2.1]
  exact h.next hlim

lemma commitProbes_sends (hlim : s.WithinLimit)
    (h : Protected s t sealed (probes.map PreparedProbe.size))
    (hall : sealed.length = probes.length) (sentCount : Nat) (a : Attempt) :
    Sends s (t.commitProbes k probes sealed sentCount a) sealed (sealed.take sentCount)
        (probes.map PreparedProbe.size) ∧
      (t.commitProbes k probes sealed sentCount a).nextPacketNumber =
        s.nextPacketNumber + (sealed.take sentCount).length := by
  have hsame : sealed.map ShortPacket.size = probes.map PreparedProbe.size := by
    apply h.sizes.eq_of_length
    rw [length_map, length_map, hall]
  have hsends := h.handOver hlim sentCount
  rw [map_take, hsame, ← map_take, ← probesPayloadLen_eq, ← probesPayloadLen_eq] at hsends
  refine ⟨hsends.followed rfl rfl rfl rfl, ?_⟩
  show (Sender.releaseAntiAmplification _ _).nextPacketNumber + _ = _
  rw [(releaseAntiAmplification_wire _ _).2.1]
  show t.nextPacketNumber + _ = _
  rw [h.next hlim]

/-- The keys last for the whole batch, or nothing of it is protected. -/
theorem sealProbes_stopped {e : Error} (h : s.sealProbes probes = (some e, sealed, t))
    (hbudget : probes.length ≤ s.aeadBudget ∨ s.aeadBudget = 0) : sealed = [] := by
  rcases hbudget with hbudget | hbudget
  · have := sealProbes_within_budget probes hbudget
    rw [h] at this
    cases this
  have := sealProbes_no_budget probes hbudget
  rw [h] at this
  exact this

lemma sealProbes_protected (hlim : s.WithinLimit) (hplanned : ProbesPlanned s probes)
    {books : B} (hres : s.reserveAntiAmplification (probesPayloadLen probes) = .ok t)
    (h : ({ t with books := books } : Sender B).sealProbes probes = (result, sealed, u)) :
    Protected s u sealed (probes.map PreparedProbe.size) ∧
      (result = none → sealed.length = probes.length) := by
  have hsizes : ∀ p ∈ probes, p.size =
      ({ t with books := books } : Sender B).sizeOf p.packetNumberLen p.candidate.payload := by
    intro p hp
    rw [hplanned.sizes p hp]
    unfold Sender.sizeOf
    rw [← (reserveAntiAmplification_keeps hlim hres).1]
  have hplan := sealProbes_seals probes hsizes
  have hall := sealProbes_length (s := { t with books := books }) probes
  rw [h] at hplan hall
  rw [hplanned.numbers] at hplan
  rw [probesPayloadLen_eq] at hres
  have hseals := (Quiet.books t books).seals.trans hplan.seals
  exact ⟨⟨⟨t, hres, hseals⟩, hplan.consecutive, hplan.sizes⟩, hall⟩

lemma sendProbes_sends (hlim : s.WithinLimit) (probes : List PreparedProbe)
    (hplan : ProbesPlanned s probes) (a : Attempt) (delivery : BatchDelivery) :
    SendsBatch s (s.sendProbes k probes a delivery).2 (probes.map PreparedProbe.size) delivery := by
  unfold sendProbes
  cases hres : s.reserveAntiAmplification (probesPayloadLen probes) with
  | error e => exact (Quiet.refl s).sendsBatch _ delivery
  | ok s₁ =>
    have hbudget := reserveAntiAmplification_budget hlim hres
    simp only
    rcases htrack : trackProbes k a s₁.books probes with ⟨result, books⟩
    cases result with
    | error e => exact (reserve_release_quiet hlim hres books).sendsBatch _ delivery
    | ok _ =>
      simp only
      rcases hseal : ({ s₁ with books := books } : Sender B).sealProbes probes with
        ⟨result, sealed, s₂⟩
      obtain ⟨hprot, hall⟩ := sealProbes_protected hlim hplan hres hseal
      obtain ⟨habandon, hnext⟩ := abandonProbes_sends k hlim hprot a
      cases delivery with
      | outOfMemory =>
        refine Quiet.sendsBatch ?_ _ _
        exact (reserve_release_quiet hlim hres books).trans (Quiet.books _ _)
      | refused =>
        have hnever : ¬ s.TakesBatch (probes.map PreparedProbe.size).length .refused := by
          rintro (h | ⟨⟨_, _, h, _⟩, _⟩) <;> cases h
        cases result with
        | none | some => exact ⟨sealed, [], habandon, hnext, fun h => absurd h hnever⟩
      | progress sentCount sendError =>
        cases result with
        | some e =>
          refine ⟨sealed, [], habandon, hnext, fun h => ?_⟩
          rcases h with h | ⟨-, hcan⟩
          · cases h
          · rw [length_map, ← hbudget] at hcan
            exact sealProbes_stopped hseal hcan
        | none =>
          obtain ⟨hcommit, hnext⟩ :=
            commitProbes_sends k hlim hprot (hall rfl) sentCount a
          refine ⟨sealed, sealed.take sentCount, hcommit, hnext, fun h => ?_⟩
          rcases h with h | ⟨⟨n, e, heq, hle⟩, -⟩
          · cases h
          cases heq
          rw [length_map, ← hall rfl] at hle
          exact (take_of_length_le hle).symm

def probesOffer (s : Sender B) (first remaining : Nat) (a : Attempt) : List PacketSize :=
  match s.planProbes k first a.nowNs (min remaining maxBatchPackets) [] with
  | .error _ => []
  | .ok probes => probes.map PreparedProbe.size

lemma retransmitPtoProbeBatchAt_sends (hlim : s.WithinLimit) (first remaining : Nat)
    (a : Attempt) (delivery : BatchDelivery) :
    SendsBatch s (s.retransmitPtoProbeBatchAt k first remaining a delivery).2
      (s.probesOffer k first remaining a) delivery := by
  unfold retransmitPtoProbeBatchAt probesOffer
  cases hplan : s.planProbes k first a.nowNs (min remaining maxBatchPackets) [] with
  | error e => exact (Quiet.refl s).sendsBatch _ delivery
  | ok probes =>
    have hplanned := planProbes_planned k first a.nowNs _ [] probes
      ⟨rfl, nofun, nofun⟩ hplan
    cases probes with
    | nil => exact (Quiet.refl s).sendsBatch _ delivery
    | cons probe rest => exact sendProbes_sends k hlim (probe :: rest) hplanned a delivery

/-! ### Application packets -/

/-- The packets are numbered one after the other and sized as they will be protected. -/
structure PacketsPlanned (s : Sender B) (packets : List PreparedPacket) : Prop where
  numbers : packets.map packetNumber = range' s.nextPacketNumber packets.length
  sizes : ∀ p ∈ packets, p.size = s.sizeOf p.packetNumberLen p.payload
  small : ∀ p ∈ packets, p.packetNumber ≤ maxPacketNumber

lemma planPackets_planned (nowNs : Nat) (payloads : List (List Frame × Bytes))
    (planned packets : List PreparedPacket) (hplan : PacketsPlanned s planned)
    (h : s.planPackets k nowNs planned payloads = .ready packets) : PacketsPlanned s packets := by
  induction payloads generalizing planned with
  | nil =>
    injection h with h
    exact h ▸ hplan
  | cons head rest ih =>
    unfold planPackets at h
    simp only at h
    split at h
    · cases h
    rename_i packetLen hlen
    split at h
    · cases h
    split at h
    · refine ih _ ⟨?_, ?_, ?_⟩ h
      · rw [map_append, hplan.numbers, length_append, length_singleton,
          range'_concat]
        simp
      · refine forall_mem_append.mpr ⟨hplan.sizes, forall_mem_singleton.mpr ?_⟩
        simp [size, Sender.sizeOf, shortPacketLen_ok hlen]
      · exact forall_mem_append.mpr
          ⟨hplan.small, forall_mem_singleton.mpr (shortPacketLen_number hlen)⟩
    · cases h
    · split at h
      · cases h
      · injection h with h
        exact h ▸ hplan
    split at h
    · cases h
    · injection h with h
      exact h ▸ hplan

lemma packetsPayloadLen_eq (packets : List PreparedPacket) :
    packetsPayloadLen packets = payloadTotal (packets.map size) := by
  simp [packetsPayloadLen, payloadTotal, size, Function.comp_def]

lemma sealPackets_seals (a : Attempt) (packets : List PreparedPacket)
    (hsizes : ∀ p ∈ packets, p.size = s.sizeOf p.packetNumberLen p.payload) :
    SealsPlan s (s.sealPackets k a packets).2.2 (s.sealPackets k a packets).2.1
      (packets.map packetNumber) (packets.map size) ∧
      ((s.sealPackets k a packets).1 = none →
        (s.sealPackets k a packets).2.1.length = packets.length) := by
  induction packets generalizing s with
  | nil => exact ⟨(Quiet.refl s).sealsPlan _ _, fun _ => rfl⟩
  | cons packet rest ih =>
    unfold sealPackets
    rcases htrack : k.trackBatched s.books (batchRecord packet a) packet.payload with
      ⟨result, books⟩
    have hbooks := Quiet.books s books
    cases result with
    | error e => exact ⟨hbooks.sealsPlan _ _, fun h => by cases h⟩
    | ok _ =>
      have hrest := ih (s := ({ s with books := books } : Sender B).sealShortPacket
        packet.packetNumber packet.packetNumberLen packet.payload)
        (fun p hp => hsizes p (mem_cons_of_mem _ hp))
      obtain ⟨hplan, hall⟩ := hrest
      refine ⟨?_, fun hnone => ?_⟩
      · rw [map_cons, map_cons, hsizes packet (mem_cons_self ..)]
        exact SealsPlan.cons hbooks hplan
      · simp [hall hnone]

/-- A batch whose packet numbers are used up as far as it was protected. -/
def SendsAll (s t : Sender B) (offer : List PacketSize) : Prop :=
  ∃ sealed sent, Sends s t sealed sent offer ∧
    t.nextPacketNumber = s.nextPacketNumber + sealed.length

lemma Quiet.sendsAll (h : Quiet s t) (offer : List PacketSize) : SendsAll s t offer :=
  ⟨[], [], h.sends offer, h.next⟩

lemma abandonPackets_sends (hlim : s.WithinLimit)
    (h : Protected s t sealed (packets.map size)) (needsKeyUpdate : Bool) (a : Attempt) :
    SendsAll s (t.abandonPackets k packets sealed.length needsKeyUpdate a) (packets.map size) := by
  have hsends := h.abandon hlim
  rw [← packetsPayloadLen_eq] at hsends
  have hnext := h.next hlim
  refine ⟨sealed, [], ?_, ?_⟩
  · unfold abandonPackets
    split
    · exact hsends.quiet (Quiet.books _ _)
    · exact hsends.followed rfl rfl rfl rfl
  unfold abandonPackets
  split
  · rename_i hzero
    simp [(releaseAntiAmplification_wire _ _).2.1, hnext, hzero]
  · simp [(releaseAntiAmplification_wire _ _).2.1, hnext]

lemma commitPackets_sends (hlim : s.WithinLimit) (h : Protected s t sealed (packets.map size))
    (hall : sealed.length = packets.length) (sentCount : Nat) (needsKeyUpdate : Bool)
    (a : Attempt) :
    SendsAll s (t.commitPackets k packets sealed sentCount needsKeyUpdate a)
      (packets.map size) := by
  have hsame : sealed.map ShortPacket.size = packets.map size := by
    apply h.sizes.eq_of_length
    rw [length_map, length_map, hall]
  have hsends := h.handOver hlim sentCount
  rw [map_take, hsame, ← map_take, ← packetsPayloadLen_eq, ← packetsPayloadLen_eq]
    at hsends
  refine ⟨sealed, sealed.take sentCount, hsends.followed rfl rfl rfl rfl, ?_⟩
  show (Sender.releaseAntiAmplification _ _).nextPacketNumber + _ = _
  rw [(releaseAntiAmplification_wire _ _).2.1]
  show t.nextPacketNumber + _ = _
  rw [h.next hlim]

lemma prepareBatchKeys_quiet (s : Sender B) (needsKeyUpdate : Bool) :
    Quiet s (s.prepareBatchKeys needsKeyUpdate).2 := by
  unfold prepareBatchKeys
  split
  · exact prepareAeadForEncryption_quiet s _
  · exact Quiet.refl s

lemma sealPackets_protected (hlim : s.WithinLimit) (hplanned : PacketsPlanned s packets)
    {s₁ : Sender B} (a : Attempt)
    (hres : s.reserveAntiAmplification (packetsPayloadLen packets) = .ok s₁)
    (hkeys : Quiet s₁ t) (h : t.sealPackets k a packets = (result, sealed, u)) :
    Protected s u sealed (packets.map size) ∧
      (result = none → sealed.length = packets.length) := by
  have hsizes : ∀ p ∈ packets, p.size = t.sizeOf p.packetNumberLen p.payload := by
    intro p hp
    rw [hplanned.sizes p hp, hkeys.sizeOf]
    unfold Sender.sizeOf
    rw [← (reserveAntiAmplification_keeps hlim hres).1]
  obtain ⟨hplan, hall⟩ := sealPackets_seals k a packets hsizes
  rw [h] at hplan hall
  rw [hplanned.numbers] at hplan
  rw [packetsPayloadLen_eq] at hres
  have hseals := hkeys.seals.trans hplan.seals
  exact ⟨⟨⟨s₁, hres, hseals⟩, hplan.consecutive, hplan.sizes⟩, hall⟩

lemma SendsAll.after {offer : List PacketSize} (h : Quiet s t) (hs : SendsAll t u offer) :
    SendsAll s u offer := by
  obtain ⟨sealed, sent, hsends, hnext⟩ := hs
  exact ⟨sealed, sent, Sends.after h hsends, by rw [hnext, h.next]⟩

lemma sendPackets_sends (hlimit : s.WithinLimit) (packets : List PreparedPacket)
    (hplanned : PacketsPlanned s packets) (needsKeyUpdate : Bool) (a : Attempt)
    (delivery : BatchDelivery) :
    SendsAll s (s.sendPackets k packets needsKeyUpdate a delivery).2 (packets.map size) := by
  unfold sendPackets
  split
  · exact (Quiet.refl s).sendsAll _
  rcases hbatch : k.reserveBatch s.books packets with ⟨result, books⟩
  have hbooks := Quiet.books s books
  cases result with
  | error e => exact hbooks.sendsAll _
  | ok _ =>
    simp only
    apply SendsAll.after hbooks
    have hlimit' := hbooks.withinLimit hlimit
    have hplanned' : PacketsPlanned { s with books := books } packets :=
      ⟨hplanned.numbers, hplanned.sizes, hplanned.small⟩
    cases hres : ({ s with books := books } : Sender B).reserveAntiAmplification
      (packetsPayloadLen packets) with
    | error e => exact (Quiet.books _ _).sendsAll _
    | ok s₁ =>
      have hkeys := prepareBatchKeys_quiet s₁ needsKeyUpdate
      simp only
      rcases hprep : s₁.prepareBatchKeys needsKeyUpdate with ⟨result, s₂⟩
      rw [hprep] at hkeys
      cases result with
      | error e =>
        rw [packetsPayloadLen_eq] at hres
        have hprot : Protected { s with books := books } s₂ []
            (packets.map size) :=
          ⟨⟨s₁, hres, hkeys.seals⟩, rfl, nil_prefix⟩
        exact abandonPackets_sends k hlimit' hprot needsKeyUpdate a
      | ok _ =>
        simp only
        rcases hseal : s₂.sealPackets k a packets with ⟨result, sealed, s₃⟩
        obtain ⟨hprot, hall⟩ :=
          sealPackets_protected k hlimit' hplanned' a hres hkeys hseal
        have habandon := abandonPackets_sends k hlimit' hprot needsKeyUpdate a
        cases result with
        | some e => exact habandon
        | none =>
          cases delivery with
          | outOfMemory | refused => exact habandon
          | progress sentCount sendError =>
            exact commitPackets_sends k hlimit' hprot (hall rfl) sentCount
              needsKeyUpdate a

lemma planBatch_planned {packets : List (List Frame)} {a : Attempt}
    {planned : List PreparedPacket} (h : s.planBatch k packets a = .ready planned) :
    PacketsPlanned s planned := by
  unfold planBatch at h
  simp only at h
  split at h
  · cases h
  split at h
  · cases h
  split at h
  · cases h
  · cases h
  · exact planPackets_planned k _ _ [] planned ⟨rfl, nofun, nofun⟩ h

def batchOffer (s : Sender B) (packets : List (List Frame)) (a : Attempt) : List PacketSize :=
  match packets with
  | [] => []
  | first :: _ =>
    if s.handshakeStatus.needsHandshakeDone then s.sendOffer k first { a with ecn := .notEct }
    else
      match s.planBatch k packets { a with ecn := .notEct } with
      | .refused _ => []
      | .blocked control _ => s.controlOffer k control { a with ecn := .notEct }
      | .ready planned => planned.map size

lemma sendManyProgressAt_sends (hlim : s.WithinLimit) (packets : List (List Frame))
    (a : Attempt) (delivery : BatchDelivery) :
    SendsOne s (s.sendManyProgressAt k packets a delivery).2 (s.batchOffer k packets a) a ∨
      SendsAll s (s.sendManyProgressAt k packets a delivery).2 (s.batchOffer k packets a) := by
  unfold sendManyProgressAt batchOffer
  have hquiet := (Quiet.refl s).sendsOne
  cases packets with
  | nil => exact .inl (hquiet _ a)
  | cons first rest =>
    simp only
    split
    · exact .inl (hquiet _ a)
    by_cases hdone : s.handshakeStatus.needsHandshakeDone = true
    · rw [if_pos hdone, if_pos hdone]
      left
      have h := (sendsOne_walk k).sendWithEcnAt s first { a with ecn := .notEct } hlim
      rcases hsend : s.sendWithEcnAt k first { a with ecn := .notEct } with ⟨result, t⟩
      rw [hsend] at h
      cases result with
      | error | ok => exact h
    rw [if_neg hdone]
    split
    · exact .inl (hquiet _ a)
    split
    · left
      have hclosed : Quiet s s.enterAeadLimitReached := ⟨rfl, rfl, rfl, rfl, rfl, rfl⟩
      exact hclosed.sendsOne _ a
    cases hplan : s.planBatch k (first :: rest) { a with ecn := .notEct } with
    | refused e => exact .inl (hquiet _ a)
    | blocked control e =>
      left
      have h := (sendsOne_walk k).sendBlocked s control e { a with ecn := .notEct } hlim
      simp only [sendBatchBlocked]
      rcases hsend : s.sendBlocked k control e { a with ecn := .notEct } with ⟨result, t⟩
      rw [hsend] at h
      cases result with
      | error | ok => exact h
    | ready planned =>
      right
      exact sendPackets_sends k hlim planned (planBatch_planned k hplan) _ _ delivery

end Batch

end Sender

end Netz.Quic
