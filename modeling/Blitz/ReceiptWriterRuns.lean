import Blitz.ReceiptWriter
import Blitz.WatchtowerHonestLog

/-! Whole runs of a receipt writer over storage that fails at will: the log it
keeps, and which of its receipts anybody can ever see. -/
namespace Blitz.Validator
open LittleEndian Receipts HashChain Watchtower

section Runs
variable {c : Crypto} {key logId : Bytes 32} {n : Node} {w : Writer} {t : Turn}
  {log : List SignedReceipt} {s : SignedReceipt}

/-- A writer that stands at the end of `log`. -/
structure Running (c : Crypto) (key logId : Bytes 32) (log events : List SignedReceipt)
    (w : Writer) : Prop where
  key : w.key = key
  logId : w.logId = logId
  seq : log.length = w.seq.toNat
  link : w.prevReceiptHash = head (·.receiptHash c) genesisPrevHash log
  equivocation : w.equivocation = false
  published : w.published = none
  events : events = log

/-- The store keeps `log`, which is an honest one, and nobody was sent anything else. -/
structure Kept (c : Crypto) (key logId : Bytes 32) (n : Node) (log : List SignedReceipt) :
    Prop where
  honest : HonestLog c ⟨c.verifyingKey key, logId⟩ log
  rows : ∀ s ∈ log, n.ledger.stored s.receipt.seq = some s.toBytes
  sent : ∀ s ∈ n.events, s ∈ log
  running : ∀ w, n.writer = some w → Running c key logId log n.events w

lemma kept_spawn (ledger : ReceiptLedger) (key : Bytes 32) (nanos minted : UInt64)
    (deadline : RevealDeadline) :
    Kept c key (mintLogId c key nanos minted)
      (Node.spawn c ledger key nanos minted false deadline) [] where
  honest := ⟨by simp, Linked.nil⟩
  rows := by simp
  sent := by simp [Node.spawn]
  running := by
    intro w hw
    obtain rfl := Option.some.inj hw
    exact ⟨rfl, rfl, rfl, rfl, rfl, rfl, rfl⟩

lemma Running.extend {events : List SignedReceipt} (hr : Running c key logId log events w)
    (h : HonestLog c ⟨c.verifyingKey key, logId⟩ log) (hs : Next c w s) :
    HonestLog c ⟨c.verifyingKey key, logId⟩ (log ++ [s]) where
  accepted := by
    intro a ha
    rcases List.mem_append.mp ha with ha | ha
    · exact h.accepted a ha
    · obtain rfl := List.mem_singleton.mp ha
      refine Operator.accepts_eq_ok.mpr ⟨hs.logId.trans hr.logId, ?_⟩
      have hv := hs.verified
      rwa [hr.key] at hv
  chain := by
    refine h.chain.concat ?_ (hs.link.trans hr.link)
    rw [position, hs.seq, hr.seq]

lemma Running.fresh {events : List SignedReceipt} (hr : Running c key logId log events w)
    (h : HonestLog c ⟨c.verifyingKey key, logId⟩ log) {a : SignedReceipt} (ha : a ∈ log) :
    a.receipt.seq ≠ w.seq := by
  intro he
  have hlt := h.chain.number_lt ha
  rw [position, he, hr.seq] at hlt
  exact lt_irrefl _ hlt

lemma Kept.rows_update (h : Kept c key logId n log) (hw : n.writer = some w) (hs : Next c w s)
    {stored : UInt64 → Option (List UInt8)}
    (hstored : stored = Function.update n.ledger.stored w.seq (some s.toBytes)) :
    (∀ a ∈ log, stored a.receipt.seq = some a.toBytes) ∧
      ∀ a ∈ log ++ [s], stored a.receipt.seq = some a.toBytes := by
  have hold : ∀ a ∈ log, stored a.receipt.seq = some a.toBytes := by
    intro a ha
    rw [hstored, Function.update_of_ne ((h.running w hw).fresh h.honest ha)]
    exact h.rows a ha
  refine ⟨hold, ?_⟩
  intro a ha
  rcases List.mem_append.mp ha with ha | ha
  · exact hold a ha
  · obtain rfl := List.mem_singleton.mp ha
    rw [hstored, hs.seq, Function.update_self]

lemma Next.untouched (hs : Next c w s) {stored stored' : UInt64 → Option (List UInt8)}
    (hstored : stored' = Function.update stored w.seq (some s.toBytes)) {seq : UInt64}
    (hne : ∀ a ∈ log ++ [s], a.receipt.seq ≠ seq) : stored' seq = stored seq := by
  have hseq : seq ≠ w.seq := by
    rw [← hs.seq]
    exact (hne s (by simp)).symm
  rw [hstored, Function.update_of_ne hseq]

lemma Kept.unmoved (h : Kept c key logId n log) (hw : n.writer = some w) {n' : Node} {w' : Writer}
    (hw' : n'.writer = some w') (same : SameLog w w') (events : n'.events = n.events)
    (rows : ∀ s ∈ log, n'.ledger.stored s.receipt.seq = some s.toBytes) :
    Kept c key logId n' log := by
  have hr := h.running w hw
  refine ⟨h.honest, rows, ?_, ?_⟩
  · rw [events]
    exact h.sent
  · intro v hv
    obtain rfl := Option.some.inj (hw'.symm.trans hv)
    exact ⟨same.key.trans hr.key, same.logId.trans hr.logId, by rw [same.seq, hr.seq],
      same.link.trans hr.link, same.equivocation.trans hr.equivocation,
      same.published.trans hr.published, events.trans hr.events⟩

/-- The index put of a stamp does not fail once the receipt's row is written. -/
def Indexed (t : Turn) : Prop :=
  ∀ txSig wireBytes recentBlockhash, t.command = .stamp txSig wireBytes recentBlockhash →
    t.disk 0 = none → t.disk 1 = none

theorem Kept.handle (h : Kept c key logId n log) (t : Turn) :
    ∃ added, Kept c key logId (n.handle c t).1 (log ++ added) ∧
      (∀ s, (n.handle c t).2 = .issued (.ok s) → s ∈ log ++ added) ∧
      (Indexed t → ∀ seq, (∀ s ∈ log ++ added, s.receipt.seq ≠ seq) →
        (n.handle c t).1.ledger.stored seq = n.ledger.stored seq) := by
  cases hw : n.writer with
  | none =>
    have hsame : (n.handle c t).1 = n := by rw [Node.handle, hw]
    refine ⟨[], by rw [List.append_nil, hsame]; exact h, ?_, fun _ _ _ => by rw [hsame]⟩
    intro s hs
    rw [Node.handle, hw] at hs
    cases hc : t.command <;> rw [hc] at hs <;> cases hs
  | some w =>
    have hr := h.running w hw
    have hturn := handle_turned (c := c) (t := t) hw hr.published hr.equivocation
    generalize (n.handle c t).1 = n' at hturn ⊢
    generalize (n.handle c t).2 = reply at hturn ⊢
    cases hturn with
    | quiet w' hw' same events stored answer =>
      refine ⟨[], ?_, fun s hs => absurd hs (answer _), fun _ _ _ => by rw [stored]⟩
      rw [List.append_nil]
      exact h.unmoved hw hw' same events (by rw [stored]; exact h.rows)
    | refused e hw' events stored =>
      refine ⟨[], ?_, by simp, fun _ _ _ => by rw [stored]⟩
      rw [List.append_nil]
      exact h.unmoved hw hw' (.refl w) events (by rw [stored]; exact h.rows)
    | dangling e s hw' next events stored stamped first second =>
      refine ⟨[], ?_, by simp, ?_⟩
      · rw [List.append_nil]
        exact h.unmoved hw hw' (.refl w) events (h.rows_update hw next stored).1
      · intro hindexed
        obtain ⟨txSig, wireBytes, recentBlockhash, hstamp⟩ := stamped
        rw [hindexed _ _ _ hstamp first] at second
        cases second
    | issued w' s hw' next hkey hlogId hseq hlink hequivocation hpublished events stored =>
      refine ⟨[s], ⟨hr.extend h.honest next, (h.rows_update hw next stored).2, ?_, ?_⟩, ?_,
        fun _ seq hne => next.untouched stored hne⟩
      · rw [events, hr.events]
        exact fun a ha => ha
      · intro v hv
        obtain rfl := Option.some.inj (hw'.symm.trans hv)
        exact ⟨hkey.trans hr.key, hlogId.trans hr.logId, by rw [hseq, ← hr.seq]; simp,
          by rw [hlink, head_concat], hequivocation.trans hr.equivocation, hpublished,
          by rw [events, hr.events]⟩
      · rintro a ⟨⟩
        simp
    | panicked s hw' next events stored last =>
      refine ⟨[s], ⟨hr.extend h.honest next, (h.rows_update hw next stored).2, ?_, ?_⟩, by simp,
        fun _ seq hne => next.untouched stored hne⟩
      · rw [events]
        exact fun a ha => List.mem_append_left _ (h.sent a ha)
      · intro v hv
        rw [hw'] at hv
        cases hv

theorem Kept.run (h : Kept c key logId n log) (turns : List Turn) :
    ∃ added, Kept c key logId (n.run c turns) (log ++ added) := by
  induction turns generalizing n log with
  | nil => exact ⟨[], by simpa [Node.run] using h⟩
  | cons t turns ih =>
    obtain ⟨added, hstep, _⟩ := h.handle t
    obtain ⟨more, hrun⟩ := ih hstep
    exact ⟨added ++ more, by simpa [Node.run] using hrun⟩

/-- A node after some turns, spawned over any store with the attack mode off. -/
def Node.after (c : Crypto) (ledger : ReceiptLedger) (key : Bytes 32) (nanos minted : UInt64)
    (deadline : RevealDeadline) (turns : List Turn) : Node :=
  (Node.spawn c ledger key nanos minted false deadline).run c turns

/-- The log as the store, the subscribers and the writer's own fields have it. -/
structure LogInvariant (c : Crypto) (n : Node) (w : Writer) : Prop where
  dense : n.events.length = w.seq.toNat
  rows : ∀ i s, n.events[i]? = some s →
    (∃ outcome, n.ledger.readReceipt none (UInt64.ofNat i) = .ok (some (outcome, s.toBytes))) ∧
      SignedReceipt.fromBytes s.toBytes = .ok s ∧ s.receipt.seq = UInt64.ofNat i
  signed : ∀ s ∈ n.events, s.receipt.logId = w.logId ∧ s.receipt.validate = .ok () ∧
    s.verify c (c.verifyingKey w.key) = .ok ()
  rooted : ∀ s, n.events[0]? = some s → s.receipt.prevReceiptHash = genesisPrevHash
  linked : ∀ i a b, n.events[i]? = some a → n.events[i + 1]? = some b →
    b.receipt.prevReceiptHash = a.receiptHash c
  next : w.prevReceiptHash = (n.events.getLast?.map (·.receiptHash c)).getD genesisPrevHash

lemma Kept.read (h : Kept c key logId n log) (hs : s ∈ log) :
    ∃ outcome, n.ledger.readReceipt none s.receipt.seq = .ok (some (outcome, s.toBytes)) := by
  obtain ⟨outcome, hrow⟩ := ReceiptLedger.stored_eq_some.mp (h.rows s hs)
  exact ⟨outcome, ReceiptLedger.readReceipt_eq_ok.mpr ⟨rfl, hrow⟩⟩

lemma Kept.logInvariant (h : Kept c key logId n log) (hw : n.writer = some w) :
    LogInvariant c n w := by
  have hr := h.running w hw
  have hverified (a : SignedReceipt) (ha : a ∈ log) :
      a.receipt.logId = logId ∧ a.verify c (c.verifyingKey key) = .ok () :=
    Operator.accepts_eq_ok.mp (h.honest.accepted a ha)
  have hvalid (a : SignedReceipt) (ha : a ∈ log) : a.receipt.validate = .ok () :=
    (SignedReceipt.verify_eq_ok.mp (hverified a ha).2).1
  refine ⟨?_, ?_, ?_, ?_, ?_, ?_⟩ <;> rw [hr.events]
  · exact hr.seq
  · intro i a ha
    have hmem := List.mem_of_getElem? ha
    have hseq : a.receipt.seq = UInt64.ofNat i := by
      rw [← h.honest.chain.numbered i a ha, position, UInt64.ofNat_toNat]
    rw [← hseq, SignedReceipt.fromBytes_toBytes, hvalid a hmem]
    exact ⟨h.read hmem, rfl, rfl⟩
  · intro a ha
    rw [hr.logId, hr.key]
    exact ⟨(hverified a ha).1, hvalid a ha, (hverified a ha).2⟩
  · exact h.honest.chain.rooted
  · exact h.honest.chain.linked
  · exact hr.link

section Spawned
variable (c) (ledger : ReceiptLedger) (key : Bytes 32) (nanos minted : UInt64)
  (deadline : RevealDeadline) (turns : List Turn)

lemma kept_after :
    ∃ log, Kept c key (mintLogId c key nanos minted)
      (Node.after c ledger key nanos minted deadline turns) log :=
  (kept_spawn ledger key nanos minted deadline).run turns

theorem exists_honestRun {w : Writer}
    (hw : (Node.after c ledger key nanos minted deadline turns).writer = some w) :
    ∃ r : HonestRun c (c.verifyingKey key), r.logId = mintLogId c key nanos minted ∧
      r.next = w.seq ∧ r.log = (Node.after c ledger key nanos minted deadline turns).events := by
  obtain ⟨log, h⟩ := kept_after c ledger key nanos minted deadline turns
  have hr := h.running w hw
  exact ⟨⟨_, log, w.seq, h.honest, hr.seq⟩, rfl, rfl, hr.events.symm⟩

/-- Whatever fails and whoever asks, the log stays dense, linked, signed and as
broadcast; an answer once given is the row for good; a refusal changes nothing. -/
theorem receipt_log :
    (∀ w, (Node.after c ledger key nanos minted deadline turns).writer = some w →
      LogInvariant c (Node.after c ledger key nanos minted deadline turns) w) ∧
    (∀ t s, ((Node.after c ledger key nanos minted deadline turns).handle c t).2 =
        .issued (.ok s) →
      ∀ later, ∃ outcome,
        (((Node.after c ledger key nanos minted deadline turns).handle c t).1.run c
          later).ledger.readReceipt none s.receipt.seq = .ok (some (outcome, s.toBytes))) ∧
    ∀ t e, ((Node.after c ledger key nanos minted deadline turns).handle c t).2 =
        .issued (.error e) →
      ∀ w w', (Node.after c ledger key nanos minted deadline turns).writer = some w →
        ((Node.after c ledger key nanos minted deadline turns).handle c t).1.writer = some w' →
        w'.seq = w.seq ∧ w'.prevReceiptHash = w.prevReceiptHash ∧ w'.pending = w.pending := by
  obtain ⟨log, h⟩ := kept_after c ledger key nanos minted deadline turns
  generalize Node.after c ledger key nanos minted deadline turns = n at h ⊢
  refine ⟨fun w hw => h.logInvariant hw, ?_, ?_⟩
  · intro t s hs later
    obtain ⟨added, hstep, hreply, _⟩ := h.handle t
    obtain ⟨more, hrun⟩ := hstep.run later
    exact hrun.read (List.mem_append_left _ (hreply s hs))
  · intro t e he w w' hw hw'
    have hr := h.running w hw
    have hturn := handle_turned (c := c) (t := t) hw hr.published hr.equivocation
    rw [he] at hturn
    have hsame : w' = w ∨ (n.handle c t).1.writer = none := by
      cases hturn with
      | quiet _ _ _ _ _ answer => exact absurd rfl (answer _)
      | refused _ hw₁ _ _ => exact Or.inl (Option.some.inj (hw'.symm.trans hw₁))
      | dangling _ _ hw₁ _ _ _ _ _ _ => exact Or.inl (Option.some.inj (hw'.symm.trans hw₁))
      | panicked _ hw₁ _ _ _ _ => exact Or.inr hw₁
    rcases hsame with rfl | hnone
    · exact ⟨rfl, rfl, rfl⟩
    · rw [hnone] at hw'
      cases hw'

end Spawned

/-- A receipt seen at some moment of a run: read from the store, sent to the
subscribers, or returned to a caller. -/
inductive Observable (c : Crypto) : Node → List Turn → SignedReceipt → Prop
  | read {n : Node} {turns : List Turn} {s : SignedReceipt} (h : n.ledger.Readable s) :
      Observable c n turns s
  | sent {n : Node} {turns : List Turn} {s : SignedReceipt} (h : s ∈ n.events) :
      Observable c n turns s
  | returned {n : Node} {t : Turn} {turns : List Turn} {s : SignedReceipt}
      (h : (n.handle c t).2 = .issued (.ok s)) : Observable c n (t :: turns) s
  | later {n : Node} {t : Turn} {turns : List Turn} {s : SignedReceipt}
      (h : Observable c (n.handle c t).1 turns s) : Observable c n (t :: turns) s

/-- Rows that are not the log's are the ones that were there before. -/
def OthersFrom (ledger : ReceiptLedger) (n : Node) (log : List SignedReceipt) : Prop :=
  ∀ seq, (∀ s ∈ log, s.receipt.seq ≠ seq) → n.ledger.stored seq = ledger.stored seq

lemma Kept.readable (h : Kept c key logId n log) {ledger : ReceiptLedger}
    (hothers : OthersFrom ledger n log) (hs : n.ledger.Readable s) : s ∈ log ∨ ledger.Readable s := by
  obtain ⟨seq, bytes, hstored, hdecode⟩ := ReceiptLedger.readable_iff.mp hs
  by_cases hin : ∃ a ∈ log, a.receipt.seq = seq
  · obtain ⟨a, ha, rfl⟩ := hin
    rw [h.rows a ha] at hstored
    obtain rfl := Option.some.inj hstored
    have hverified := (Operator.accepts_eq_ok.mp (h.honest.accepted a ha)).2
    rw [SignedReceipt.fromBytes_toBytes, (SignedReceipt.verify_eq_ok.mp hverified).1] at hdecode
    obtain rfl := Except.ok.inj hdecode
    exact Or.inl ha
  · refine Or.inr (ReceiptLedger.readable_iff.mpr ⟨seq, bytes, ?_, hdecode⟩)
    rw [← hothers seq fun a ha he => hin ⟨a, ha, he⟩]
    exact hstored

theorem Kept.observable (h : Kept c key logId n log) {ledger : ReceiptLedger}
    (hothers : OthersFrom ledger n log) {turns : List Turn} (hindexed : ∀ t ∈ turns, Indexed t) :
    ∃ added, HonestLog c ⟨c.verifyingKey key, logId⟩ (log ++ added) ∧
      ∀ s, Observable c n turns s → s ∈ log ++ added ∨ ledger.Readable s := by
  induction turns generalizing n log with
  | nil =>
    refine ⟨[], by rw [List.append_nil]; exact h.honest, ?_⟩
    intro s hs
    rw [List.append_nil]
    cases hs with
    | read hread => exact h.readable hothers hread
    | sent hsent => exact Or.inl (h.sent s hsent)
  | cons t turns ih =>
    obtain ⟨added, hstep, hreply, hwritten⟩ := h.handle t
    have hothers' : OthersFrom ledger (n.handle c t).1 (log ++ added) := by
      intro seq hseq
      rw [hwritten (hindexed t (by simp)) seq hseq]
      exact hothers seq fun a ha => hseq a (List.mem_append_left _ ha)
    obtain ⟨more, hhonest, hseen⟩ := ih hstep hothers' fun u hu => hindexed u (by simp [hu])
    rw [List.append_assoc] at hhonest hseen
    refine ⟨added ++ more, hhonest, ?_⟩
    intro s hs
    cases hs with
    | read hread =>
      exact (h.readable hothers hread).imp (List.mem_append_left _) id
    | sent hsent => exact Or.inl (List.mem_append_left _ (h.sent s hsent))
    | returned hret =>
      refine Or.inl ?_
      rw [← List.append_assoc]
      exact List.mem_append_left _ (hreply s hret)
    | later hlater => exact hseen s hlater

/-- As long as no index put fails behind a written receipt, nobody ever sees two
different receipts for one position of a log. -/
theorem no_equivocation {ledger : ReceiptLedger} {nanos minted : UInt64} {deadline : RevealDeadline}
    {turns : List Turn} {a b : SignedReceipt}
    (hnew : ∀ s, ledger.Readable s → s.receipt.logId ≠ mintLogId c key nanos minted)
    (hbefore : ∀ a b, ledger.Readable a → ledger.Readable b →
      a.receipt.logId = b.receipt.logId → a.receipt.seq = b.receipt.seq → a = b)
    (hindexed : ∀ t ∈ turns, Indexed t)
    (ha : Observable c (Node.spawn c ledger key nanos minted false deadline) turns a)
    (hb : Observable c (Node.spawn c ledger key nanos minted false deadline) turns b)
    (hlog : a.receipt.logId = b.receipt.logId) (hseq : a.receipt.seq = b.receipt.seq) : a = b := by
  have hothers : OthersFrom ledger (Node.spawn c ledger key nanos minted false deadline) [] :=
    fun _ _ => rfl
  obtain ⟨log, hhonest, hseen⟩ :=
    (kept_spawn ledger key nanos minted deadline).observable hothers hindexed
  have hmine {s : SignedReceipt} (hs : s ∈ [] ++ log) :
      s.receipt.logId = mintLogId c key nanos minted :=
    (Operator.accepts_eq_ok.mp (hhonest.accepted s hs)).1
  rcases hseen a ha with hina | hina <;> rcases hseen b hb with hinb | hinb
  · exact hhonest.eq_of_seq_eq hina hinb hseq
  · exact absurd (hlog.symm.trans (hmine hina)) (hnew b hinb)
  · exact absurd (hlog.trans (hmine hinb)) (hnew a hina)
  · exact hbefore a b hina hinb hlog hseq

end Runs

namespace Vectors

def nanos : UInt64 := 1754300123000000000

/-- The transactions are the bytes of `abc` and `def`. -/
def abcBytes : List UInt8 := [0x61, 0x62, 0x63]
def defBytes : List UInt8 := [0x64, 0x65, 0x66]

def stampedAbc : SignedReceipt where
  receipt :=
    { logId := Bytes.hex 32 0x86bb7e8745579915ce010610f361153a8aff86d669df6932b0db75bd26db2e1f
      mode := .plain
      seq := 0
      txSig := Bytes.fill 64 0x11
      txHash := Bytes.hex 32 0xba7816bf8f01cfea414140de5dae2223b00361a396177a9cb410ff61f20015ad
      recentBlockhash := Bytes.fill 32 0x44
      prevReceiptHash := genesisPrevHash
      committer := zeroPubkey
      ingressSlot := 6150402
      tIngressMicros := 1754300123456789 }
  signature := Bytes.hex 64
    0x1cdc5c9bf56eb6302305165cb531bd15ccf3a74f67570103360a96d2b3ab527e98660310630b659d05443a8dc474c04dd56911bac441ba65bd9e37425586fd0d

def stampedDef : SignedReceipt where
  receipt :=
    { stampedAbc.receipt with
      txSig := Bytes.fill 64 0x12
      txHash := Bytes.hex 32 0xcb8379ac2098aa165029e3938a51da0bcecfc008fd6795f401178647f96c5b34
      tIngressMicros := 1754300123556789 }
  signature := Bytes.hex 64
    0xaa9471de57d9e6dcda3d92e63e979bfcedbbaccbf4ebb5872f577ee9502b30079614c16db6032aab22b2f9b667dbce34732184cc786dc3d59d2d57d69e95ff0d

def crypto : Crypto :=
  recorded Receipts.Vectors.operatorSeed Receipts.Vectors.operatorPubkey
    [(stampedAbc.message, stampedAbc.signature), (stampedDef.message, stampedDef.signature)]
    [(Receipts.Vectors.operatorPubkey.val ++ u64Bytes nanos ++ u64Bytes 0, stampedAbc.receipt.logId),
      (abcBytes, stampedAbc.receipt.txHash), (defBytes, stampedDef.receipt.txHash),
      (stampedAbc.toBytes, Bytes.hex 32
        0x68d451ab4098d7ba27879b41fabd2edebf1ba7ba9c5acffe949415b0db6a68c8),
      (stampedDef.toBytes, Bytes.hex 32
        0x04e10c946d59719b5e7d8409ea079d65342760d3ef04cfadc06f00cdc6c1f1cd)] []

def node : Node :=
  Node.spawn crypto .empty Receipts.Vectors.operatorSeed nanos 0 false .default

/-- The first request, over a disk whose accesses end as given. -/
def firstTurn (disk : Disk) : Turn where
  command := .stamp (Bytes.fill 64 0x11) abcBytes (Bytes.fill 32 0x44)
  slot := 6150402
  micros := 1754300123456789
  disk := disk

def secondTurn : Turn where
  command := .stamp (Bytes.fill 64 0x12) defBytes (Bytes.fill 32 0x44)
  slot := 6150402
  micros := 1754300123556789
  disk := fun _ => none

/-- The disk is full at exactly one of the accesses. -/
def fullAt (access : ℕ) : Disk := fun i => if i = access then some (.rocksDb "IO error") else none

end Vectors

lemma not_readable_empty (s : SignedReceipt) : ¬ReceiptLedger.empty.Readable s := by
  rw [ReceiptLedger.readable_iff]
  rintro ⟨seq, bytes, hstored, _⟩
  simp [ReceiptLedger.stored, ReceiptLedger.empty] at hstored

theorem no_equivocation_recorded :
    ∃ a b, Observable Vectors.crypto Vectors.node
        [Vectors.firstTurn (Vectors.fullAt 0), Vectors.secondTurn] a ∧
      Observable Vectors.crypto Vectors.node
        [Vectors.firstTurn (Vectors.fullAt 0), Vectors.secondTurn] b ∧ a = b := by
  have hreturned : Observable Vectors.crypto Vectors.node
      [Vectors.firstTurn (Vectors.fullAt 0), Vectors.secondTurn] Vectors.stampedDef :=
    .later (.returned (by decide +kernel))
  have hread : Observable Vectors.crypto Vectors.node
      [Vectors.firstTurn (Vectors.fullAt 0), Vectors.secondTurn] Vectors.stampedDef :=
    .later (.later (.read ⟨Vectors.stampedDef.toBytes, by decide +kernel,
      Or.inl ⟨none, 0, 1, by decide +kernel⟩⟩))
  refine ⟨_, _, hreturned, hread, no_equivocation ?_ ?_ ?_ hreturned hread rfl rfl⟩
  · exact fun s hs => absurd hs (not_readable_empty s)
  · exact fun a b hs => absurd hs (not_readable_empty a)
  · intro t ht txSig wireBytes recentBlockhash _ hfirst
    rcases List.mem_pair.mp ht with rfl | rfl
    · cases hfirst
    · rfl

/-- The index put of the first request fails: its receipt can be read, and the
next request is answered with another one for the same position. -/
theorem equivocation_by_failed_index :
    Observable Vectors.crypto Vectors.node
        [Vectors.firstTurn (Vectors.fullAt 1), Vectors.secondTurn] Vectors.stampedAbc ∧
      Observable Vectors.crypto Vectors.node
        [Vectors.firstTurn (Vectors.fullAt 1), Vectors.secondTurn] Vectors.stampedDef ∧
      Vectors.stampedAbc.receipt.logId = Vectors.stampedDef.receipt.logId ∧
      Vectors.stampedAbc.receipt.seq = Vectors.stampedDef.receipt.seq ∧
      Vectors.stampedAbc ≠ Vectors.stampedDef := by
  refine ⟨.later (.read ⟨Vectors.stampedAbc.toBytes, by decide +kernel,
    Or.inl ⟨none, 0, 1, by decide +kernel⟩⟩), .later (.returned (by decide +kernel)), rfl, rfl, ?_⟩
  decide

end Blitz.Validator
