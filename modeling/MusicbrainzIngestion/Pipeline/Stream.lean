import MusicbrainzIngestion.Pipeline.Frame

/-! What one file puts on its exchange, however its tasks fail: records of the file from
the first on, in file order and without a gap, of which only the last may be unconfirmed;
and after them its completion, but only if they are all the records and were all
confirmed. -/

namespace MusicbrainzIngestion
open Base

/-- These records were published in file order from the first on, and of them only the last
may not have been confirmed. -/
structure DataRun (job : Job) (sent : List DataMessage) (attempts : List Attempt) : Prop where
  messages : attempts.map Attempt.message = sent.map .data
  exchange : ∀ a ∈ attempts, a.exchange = job.dataType
  ordered : sent <+: job.records
  confirmed : ∀ a ∈ attempts.dropLast, a.confirmed

/-- The completion of a file, after all of its records were confirmed. -/
structure Completes (job : Job) (sent : List DataMessage) (data : List Attempt) (a : Attempt) :
    Prop where
  whole : sent = job.records
  confirmed : ∀ b ∈ data, b.confirmed
  exchange : a.exchange = job.dataType
  message : ∃ n, job.sequential.2 = .ok n ∧ a.message = .fileComplete {
    dataType := job.dataType.asStr, timestamp := a.time, totalProcessed := n, file := job.fileName }

/-- The publishes of one file. -/
def FileStream (job : Job) (attempts : List Attempt) : Prop :=
  ∃ sent data, DataRun job sent data ∧
    (attempts = data ∨ ∃ a, attempts = data ++ [a] ∧ Completes job sent data a)

theorem FileStream.nil (job : Job) : FileStream job [] :=
  ⟨[], [], ⟨rfl, by simp, List.nil_prefix, by simp⟩, .inl rfl⟩

namespace Tasks

/-- The records the batcher handed on. -/
def handedOn (t : Tasks) : List DataMessage := t.publisher.rest ++ t.batchChannel.buffer.flatten

/-- The records the parser sent that the batcher has not handed on. -/
def collected (t : Tasks) : List DataMessage := t.batcher.held ++ t.parseChannel.buffer

/-- What follows the records sent so far, as far as the tasks it has to pass are alive. -/
structure Ahead (job : Job) (sent : List DataMessage) (t : Tasks) : Prop where
  handedOn : sent ++ t.handedOn <+: job.records
  collected : t.batcher.isDone = false → sent ++ t.handedOn ++ t.collected <+: job.records
  whole : t.batcher.isDone = false → t.parser.isDone = false →
    sent ++ t.handedOn ++ t.collected ++ (t.parser.remaining job).1 = job.records

end Tasks

namespace Pipeline

variable {cfg : PipelineConfig} {job : Job} {base : List Attempt} {p q : Pipeline}
  {sent : List DataMessage}

/-- The publishes since `base`; while the publisher is alive all of them were confirmed. -/
structure Streaming (job : Job) (base : List Attempt) (p : Pipeline) : Prop where
  stream : ∃ attempts, p.shared.log = base ++ attempts ∧ FileStream job attempts
  flowing : p.tasks.publisher.isDone = false → ∃ attempts sent, p.shared.log = base ++ attempts ∧
    Burst job.dataType (sent.map .data) attempts ∧ p.tasks.Ahead job sent

theorem FileStream.of_burst {attempts : List Attempt}
    (hb : Burst job.dataType (sent.map .data) attempts) (hs : sent <+: job.records) :
    FileStream job attempts :=
  ⟨sent, attempts, ⟨hb.1, fun a ha => (hb.2 a ha).1, hs, fun a ha =>
    (hb.2 a (List.mem_of_mem_dropLast ha)).2⟩, .inl rfl⟩

/-- The publish that the publisher fails on is the last one. -/
theorem FileStream.of_lost {attempts : List Attempt} {msg : DataMessage} {a : Attempt}
    (hb : Burst job.dataType (sent.map .data) attempts) (hs : sent ++ [msg] <+: job.records)
    (hexchange : a.exchange = job.dataType) (hmessage : a.message = .data msg) :
    FileStream job (attempts ++ [a]) := by
  refine ⟨sent ++ [msg], attempts ++ [a], ⟨?_, fun b hmem => ?_, hs, ?_⟩, .inl rfl⟩
  · rw [List.map_append, hb.1, List.map_append]
    simp [hmessage]
  · rcases List.mem_append.mp hmem with hmem | hmem
    · exact (hb.2 b hmem).1
    · rw [List.mem_singleton.mp hmem]
      exact hexchange
  · rw [List.dropLast_concat]
    exact fun b hmem => (hb.2 b hmem).2

theorem streaming_start (s : Shared) : Streaming job s.log (start cfg job s) where
  stream := ⟨[], (List.append_nil _).symm, .nil job⟩
  flowing := fun _ => ⟨[], [], (List.append_nil _).symm, Burst.nil _, {
    handedOn := List.nil_prefix
    collected := fun _ => List.nil_prefix
    whole := fun _ _ => rfl }⟩

/-! ## What a step does to what is on its way -/

section Ahead

variable {t u : Tasks}

/-- The tasks moved, and what the batcher handed on is as it was. -/
theorem Ahead.congr (h : t.Ahead job sent) (hfront : u.handedOn = t.handedOn)
    (hback : u.batcher.isDone = false → t.batcher.isDone = false ∧ u.collected = t.collected)
    (hparser : u.parser.isDone = false →
      t.parser.isDone = false ∧ (u.parser.remaining job).1 = (t.parser.remaining job).1) :
    u.Ahead job sent where
  handedOn := hfront ▸ h.handedOn
  collected hopen := by
    obtain ⟨ht, hcollected⟩ := hback hopen
    rw [hfront, hcollected]
    exact h.collected ht
  whole hopen hp := by
    obtain ⟨ht, hcollected⟩ := hback hopen
    obtain ⟨hp, hrem⟩ := hparser hp
    rw [hfront, hcollected, hrem]
    exact h.whole ht hp

/-- The parser moved without sending. -/
theorem Ahead.setParser (h : p.tasks.Ahead job sent) {parser : Parser}
    (hparser : parser.isDone = false →
      p.tasks.parser.isDone = false ∧ parser.remaining job = p.tasks.parser.remaining job) :
    (p.setParser parser).tasks.Ahead job sent :=
  Ahead.congr h rfl (fun hopen => ⟨hopen, rfl⟩) fun hp =>
    ⟨(hparser hp).1, congrArg Prod.fst (hparser hp).2⟩

theorem Ahead.parserDone (h : p.tasks.Ahead job sent) (result : TaskResult Nat) :
    (p.parserDone result).tasks.Ahead job sent :=
  Ahead.congr h rfl (fun hopen => ⟨hopen, rfl⟩) fun hp => by cases hp

/-- The batcher moved and holds what it held. -/
theorem Ahead.setBatcher (h : p.tasks.Ahead job sent) {b : Batcher}
    (hopen : p.tasks.batcher.isDone = false) (hheld : b.held = p.tasks.batcher.held) :
    (p.setBatcher b).tasks.Ahead job sent :=
  Ahead.congr h rfl (fun _ => ⟨hopen, congrArg (· ++ p.tasks.parseChannel.buffer) hheld⟩)
    fun hp => ⟨hp, rfl⟩

theorem Ahead.batcherDone (h : p.tasks.Ahead job sent) (result : TaskResult Unit) :
    (p.batcherDone result).tasks.Ahead job sent :=
  Ahead.congr h rfl (fun hopen => by cases hopen) fun hp => ⟨hp, rfl⟩

/-- A record the parser sent is the next one of the file. -/
theorem Ahead.send (h : p.tasks.Ahead job sent) {msg : DataMessage}
    {rest : List (Except String String)} {count : Nat}
    (hp : p.tasks.parser = .sending msg rest count) :
    ((p.setParseBuffer (p.tasks.parseChannel.buffer ++ [msg])).setParser
      (.reading rest (count + 1))).tasks.Ahead job sent := by
  have hopen : p.tasks.parser.isDone = false := by simp [hp, Parser.isDone]
  have hrem := remaining_send job msg rest count
  rw [← hp] at hrem
  have hwhole : p.tasks.batcher.isDone = false →
      sent ++ p.tasks.handedOn ++ (p.tasks.collected ++ [msg]) ++
        ((Parser.reading rest (count + 1)).remaining job).1 = job.records := fun hb => by
    rw [← h.whole hb hopen, hrem]
    simp
  have hcollected : ((p.setParseBuffer (p.tasks.parseChannel.buffer ++ [msg])).setParser
      (.reading rest (count + 1))).tasks.collected = p.tasks.collected ++ [msg] :=
    (List.append_assoc _ _ _).symm
  refine ⟨h.handedOn, fun hb => ?_, fun hb _ => ?_⟩
  · rw [hcollected]
    exact ⟨_, hwhole hb⟩
  · rw [hcollected]
    exact hwhole hb

/-- The batcher hands a batch on. -/
theorem Ahead.handOn (h : t.Ahead job sent) (messages : List DataMessage)
    (hopen : t.batcher.isDone = false) (hfront : u.handedOn = t.handedOn ++ messages)
    (hback : t.collected = messages ++ u.collected) (hparser : u.parser = t.parser) :
    u.Ahead job sent := by
  have hcollected := h.collected hopen
  rw [hback, ← List.append_assoc, List.append_assoc sent, ← hfront] at hcollected
  refine ⟨List.IsPrefix.trans (List.prefix_append _ _) hcollected, fun _ => hcollected,
    fun _ hp => ?_⟩
  have hwhole := h.whole hopen (hparser ▸ hp)
  rwa [hback, ← List.append_assoc, List.append_assoc sent, ← hfront, ← hparser] at hwhole

theorem Ahead.flush (h : p.tasks.Ahead job sent) {messages : List DataMessage} {final : Bool}
    (hp : p.tasks.batcher.phase = .flushing messages final) :
    ((p.setBatchBuffer (p.tasks.batchChannel.buffer ++ [messages])).setBatcher
      { p.tasks.batcher with
        phase := if final then .saving else .receiving
        totalBatches := p.tasks.batcher.totalBatches + 1 }).tasks.Ahead job sent := by
  have hheld : p.tasks.batcher.held = messages ++ p.tasks.batcher.batch := by
    simp [Batcher.held, hp]
  have hafter : ({ p.tasks.batcher with
      phase := if final then .saving else .receiving
      totalBatches := p.tasks.batcher.totalBatches + 1 } : Batcher).held =
        p.tasks.batcher.batch := by
    cases final <;> rfl
  refine Ahead.handOn h messages (by simp [Batcher.isDone, hp]) ?_ ?_ rfl
  · simp [Tasks.handedOn, Pipeline.setBatcher, setBatchBuffer]
  · simp only [Tasks.collected, hheld, Pipeline.setBatcher, setBatchBuffer, hafter,
      List.append_assoc]

/-- A batch the publisher took is the next to be published. -/
theorem Ahead.take (h : p.tasks.Ahead job sent) (hp : p.tasks.publisher = .waiting)
    {batch : List DataMessage} {buffer : List (List DataMessage)}
    (hc : p.tasks.batchChannel.buffer = batch :: buffer) :
    ((p.setBatchBuffer buffer).setPublisher (publishRest batch)).tasks.Ahead job sent := by
  have hwaiting : p.tasks.publisher.rest = [] := by rw [hp]; rfl
  refine Ahead.congr h ?_ (fun hopen => ⟨hopen, rfl⟩) fun hp => ⟨hp, rfl⟩
  simp [Tasks.handedOn, setPublisher, setBatchBuffer, rest_publishRest, hwaiting, hc]

/-- The publisher sent the next record. -/
theorem Ahead.publish (h : t.Ahead job sent) {msg : DataMessage}
    (hfront : t.handedOn = msg :: u.handedOn) (hback : u.batcher = t.batcher)
    (hchannel : u.parseChannel = t.parseChannel) (hparser : u.parser = t.parser) :
    u.Ahead job (sent ++ [msg]) := by
  have hmoved : sent ++ t.handedOn = sent ++ [msg] ++ u.handedOn := by
    rw [hfront, List.append_assoc, List.singleton_append]
  have hcollected : u.collected = t.collected := by
    rw [Tasks.collected, Tasks.collected, hback, hchannel]
  refine ⟨hmoved ▸ h.handedOn, fun hopen => ?_, fun hopen hp => ?_⟩
  · rw [← hmoved, hcollected]
    exact h.collected (hback ▸ hopen)
  · rw [← hmoved, hcollected, hparser]
    exact h.whole (hback ▸ hopen) (hparser ▸ hp)

end Ahead

/-! ## Every step keeps the stream -/

/-- A step that publishes nothing. -/
theorem Streaming.goesOn (h : Streaming job base p) (hlog : q.shared.log = p.shared.log)
    (hopen : q.tasks.publisher.isDone = false → p.tasks.publisher.isDone = false ∧
      ∀ sent, p.tasks.Ahead job sent → q.tasks.Ahead job sent) : Streaming job base q where
  stream := hlog ▸ h.stream
  flowing hq := by
    obtain ⟨hp, hahead⟩ := hopen hq
    obtain ⟨attempts, sent, hl, hburst, ha⟩ := h.flowing hp
    exact ⟨attempts, sent, hlog.trans hl, hburst, hahead sent ha⟩

theorem streaming_move (h : Move cfg job p q) (hs : Sound job base p) (hst : Streaming job base p) :
    Streaming job base q := by
  cases h with
  | tick | stays | joinsParser | joinsBatcher | joinsPublisher | marks =>
    exact hst.goesOn rfl fun hopen => ⟨hopen, fun sent ha => ⟨ha.handedOn, ha.collected, ha.whole⟩⟩
  | parserStarts hp ho =>
    refine hst.goesOn rfl fun hopen => ⟨hopen, fun sent ha => Ahead.setParser ha fun _ => ?_⟩
    exact ⟨by simp [hp, Parser.isDone], by rw [hp]; simp only [Parser.remaining, Job.sequential, ho]⟩
  | parserSkips hp hm =>
    refine hst.goesOn rfl fun hopen => ⟨hopen, fun sent ha => Ahead.setParser ha fun _ => ?_⟩
    exact ⟨by simp [hp, Parser.isDone], by rw [hp, remaining_skip hm]⟩
  | parserTakes hp hm =>
    refine hst.goesOn rfl fun hopen => ⟨hopen, fun sent ha => Ahead.setParser ha fun _ => ?_⟩
    exact ⟨by simp [hp, Parser.isDone], by rw [hp, remaining_take hm]⟩
  | parserSends hp hc =>
    exact hst.goesOn rfl fun hopen => ⟨hopen, fun sent ha => Ahead.send ha hp⟩
  | parserFinishes | parserStops | parserFails =>
    exact hst.goesOn rfl fun hopen => ⟨hopen, fun sent ha => Ahead.parserDone ha _⟩
  | @batcherReceives msg buffer hp hc =>
    have hheld : p.tasks.batcher.held = p.tasks.batcher.batch := held_of_receiving _ hp
    refine hst.goesOn rfl fun hopen => ⟨hopen, fun sent ha => Ahead.congr ha rfl
      (fun _ => ⟨isDone_of_receiving _ hp, ?_⟩) fun hp => ⟨hp, rfl⟩⟩
    change (afterRecv cfg (taken p.tasks.batcher msg)).held ++ buffer = _
    rw [afterRecv_held, Tasks.collected, hheld, hc, List.append_assoc, List.singleton_append]
  | batcherCloses hp hc hclosed =>
    exact hst.goesOn rfl fun hopen => ⟨hopen, fun sent ha => Ahead.setBatcher ha
      (isDone_of_receiving _ hp) ((afterClose_held _).trans (held_of_receiving _ hp).symm)⟩
  | batcherTimesOut hp =>
    exact hst.goesOn rfl fun hopen => ⟨hopen, fun sent ha => Ahead.setBatcher ha
      (isDone_of_receiving _ hp) ((List.append_nil _).trans (held_of_receiving _ hp).symm)⟩
  | batcherCheckpoints hp saved =>
    have hheld : p.tasks.batcher.held = p.tasks.batcher.batch := by simp [Batcher.held, hp]
    exact hst.goesOn rfl fun hopen => ⟨hopen, fun sent ha => Ahead.setBatcher ha
      (by simp [Batcher.isDone, hp]) ((sizeCheck_held cfg _).trans hheld.symm)⟩
  | batcherFlushes hp hc =>
    exact hst.goesOn rfl fun hopen => ⟨hopen, fun sent ha => Ahead.flush ha hp⟩
  | batcherSaves | batcherFails =>
    exact hst.goesOn rfl fun hopen => ⟨hopen, fun sent ha => Ahead.batcherDone ha _⟩
  | publisherTakes hp hc =>
    exact hst.goesOn rfl fun _ => ⟨by simp [hp, Publisher.isDone], fun sent ha => Ahead.take ha hp hc⟩
  | publisherFinishes | publisherFails => exact hst.goesOn rfl fun hopen => by cases hopen
  | @publisherConfirms msg rest reply hp hr =>
    obtain ⟨attempts, sent, hlog, hburst, ha⟩ := hst.flowing (by simp [hp, Publisher.isDone])
    have hahead : ((p.setPublisher (publishRest rest)).setShared
        (p.shared.publish job.dataType (.data msg) reply)).tasks.Ahead job (sent ++ [msg]) := by
      refine Ahead.publish ha ?_ rfl rfl rfl
      simp [Tasks.handedOn, setPublisher, setShared, rest_publishRest, show p.tasks.publisher.rest =
        msg :: rest by simp [hp, Publisher.rest]]
    have hsnoc : Burst job.dataType ((sent ++ [msg]).map .data)
        (attempts ++ [⟨job.dataType, .data msg, reply, p.shared.now⟩]) := by
      rw [List.map_append]
      exact hburst.snoc rfl hr
    have hgrown : (p.shared.publish job.dataType (.data msg) reply).log =
        base ++ (attempts ++ [⟨job.dataType, .data msg, reply, p.shared.now⟩]) := by
      simp only [Shared.publish, hlog, List.append_assoc]
    exact ⟨⟨_, hgrown, FileStream.of_burst hsnoc
      (List.IsPrefix.trans (List.prefix_append _ _) hahead.handedOn)⟩,
      fun _ => ⟨_, _, hgrown, hsnoc, hahead⟩⟩
  | @publisherLoses msg rest reply result hp hr =>
    obtain ⟨attempts, sent, hlog, hburst, ha⟩ := hst.flowing (by simp [hp, Publisher.isDone])
    have hnext : sent ++ [msg] <+: job.records := by
      refine List.IsPrefix.trans ?_ ha.handedOn
      simp [Tasks.handedOn, show p.tasks.publisher.rest = msg :: rest by simp [hp, Publisher.rest]]
    refine ⟨⟨attempts ++ [⟨job.dataType, .data msg, reply, p.shared.now⟩], ?_,
      FileStream.of_lost hburst hnext rfl rfl⟩, fun hopen => by cases hopen⟩
    simp only [publisherDone, setShared, Shared.publish, hlog, List.append_assoc]
  | @announces n hp reply =>
    obtain ⟨⟨attempts, hlog, hburst⟩, hresult, -⟩ := returned_of_announcing hs hp
    have hdone : p.tasks.publisher.isDone = true := by
      have hj := hs.joined
      unfold Joined at hj
      rw [hp] at hj
      rw [hj.2.2]
      rfl
    refine ⟨⟨attempts ++ [⟨job.dataType, p.fileComplete job n, reply, p.shared.now⟩], ?_, job.records,
      attempts, ⟨hburst.1, fun a ha => (hburst.2 a ha).1, List.prefix_refl _, fun a ha =>
        (hburst.2 a (List.mem_of_mem_dropLast ha)).2⟩, .inr ⟨_, rfl, rfl, fun a ha =>
        (hburst.2 a ha).2, rfl, n, hresult, rfl⟩⟩, fun hopen => ?_⟩
    · simp only [setShared, Shared.publish, hlog, List.append_assoc]
    · exact absurd (hdone.symm.trans hopen) Bool.noConfusion

/-! ## Outside the pipeline only the log matters -/

theorem Sound.of_log {s s' : Shared} {t : Tasks} (h : Sound job base ⟨s, t⟩) (hlog : s'.log = s.log) :
    Sound job base ⟨s', t⟩ where
  wired := h.wired
  flow := fun hh hm => by
    obtain ⟨hd, ho, hc⟩ := h.flow hh hm
    exact ⟨by rw [show (Pipeline.mk s' t).shared.log = s.log from hlog]; exact hd, ho, hc⟩
  joined := h.joined
  announced := fun n hn => by
    rw [show (Pipeline.mk s' t).shared.log = s.log from hlog]
    exact h.announced n hn

theorem Streaming.of_log {s s' : Shared} {t : Tasks} (h : Streaming job base ⟨s, t⟩)
    (hlog : s'.log = s.log) : Streaming job base ⟨s', t⟩ :=
  h.goesOn hlog fun hopen => ⟨hopen, fun _ ha => ha⟩

/-- A file that was delivered, judged by its own publishes. -/
theorem Delivered.own {attempts : List Attempt} {n : Nat}
    (h : Delivered job base (base ++ attempts) n) : Delivered job [] attempts n := by
  obtain ⟨data, announcement, hlog, hrest⟩ := h
  exact ⟨data, announcement, List.append_cancel_left hlog, hrest⟩

end Pipeline

end MusicbrainzIngestion
