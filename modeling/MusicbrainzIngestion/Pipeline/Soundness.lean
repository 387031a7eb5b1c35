import MusicbrainzIngestion.Pipeline.Moves

/-! A file marked as processed was delivered whole. As long as no task has failed,
what the publisher confirmed, what is in flight between the tasks and what the
parser has yet to send are together the records of the file; a task ends without
an error only when nothing is left upstream of it; and the orchestrator marks the
file only when all three ended so. -/

namespace MusicbrainzIngestion
open Base

/-! ## The wiring -/

/-- Each end of a channel lives as long as its task, and a task that ends without an error
leaves nothing upstream of it. -/
structure Tasks.Wired (t : Tasks) : Prop where
  parseSender : t.parseChannel.senderAlive = !t.parser.isDone
  parseReceiver : t.parseChannel.receiverAlive = !t.batcher.isDone
  batchSender : t.batchChannel.senderAlive = !t.batcher.isDone
  batchReceiver : t.batchChannel.receiverAlive = !t.publisher.isDone
  drained : t.batcher.closing = true →
    t.parser.isDone = true ∧ t.parseChannel.buffer = [] ∧ t.batcher.batch = []
  exhausted : t.publisher.closing = true →
    t.batcher.isDone = true ∧ t.batchChannel.buffer = []

namespace Pipeline

variable {cfg : PipelineConfig} {job : Job} {p q : Pipeline}

/-! ## The batcher's own steps -/

section Batcher

variable (cfg) (b : Batcher) (msg : DataMessage)

theorem sizeCheck_open : (sizeCheck cfg b).isDone = false ∧ (sizeCheck cfg b).closing = false := by
  unfold sizeCheck
  split <;> exact ⟨rfl, rfl⟩

theorem sizeCheck_held : (sizeCheck cfg b).held = b.batch := by
  unfold sizeCheck
  split
  · exact List.append_nil _
  · rfl

theorem sizeCheck_totalRecords : (sizeCheck cfg b).totalRecords = b.totalRecords := by
  unfold sizeCheck
  split <;> rfl

theorem afterRecv_open : (afterRecv cfg b).isDone = false ∧ (afterRecv cfg b).closing = false := by
  unfold afterRecv
  split
  · exact ⟨rfl, rfl⟩
  · exact sizeCheck_open cfg b

theorem afterRecv_held : (afterRecv cfg (taken b msg)).held = b.batch ++ [msg] := by
  unfold afterRecv
  split
  · rfl
  · exact sizeCheck_held cfg (taken b msg)

theorem afterRecv_totalRecords :
    (afterRecv cfg (taken b msg)).totalRecords = b.totalRecords + 1 := by
  unfold afterRecv
  split
  · rfl
  · exact sizeCheck_totalRecords cfg (taken b msg)

theorem afterClose_closing :
    (afterClose b).isDone = false ∧ (afterClose b).closing = true ∧ (afterClose b).batch = [] := by
  unfold afterClose
  split
  · next h => exact ⟨rfl, rfl, h⟩
  · exact ⟨rfl, rfl, rfl⟩

theorem afterClose_held : (afterClose b).held = b.batch := by
  unfold afterClose
  split
  · rfl
  · exact List.append_nil _

theorem afterClose_totalRecords : (afterClose b).totalRecords = b.totalRecords := by
  unfold afterClose
  split <;> rfl

theorem isDone_of_receiving (h : b.phase = .receiving) : b.isDone = false := by
  simp [Batcher.isDone, h]

theorem held_of_receiving (h : b.phase = .receiving) : b.held = b.batch := by
  simp [Batcher.held, h]

end Batcher

theorem publishRest_open (rest : List DataMessage) :
    (publishRest rest).isDone = false ∧ (publishRest rest).closing = false := by
  cases rest <;> exact ⟨rfl, rfl⟩

theorem rest_publishRest (rest : List DataMessage) : (publishRest rest).rest = rest := by
  cases rest <;> rfl

/-! ## Wiring -/

theorem wired_spawn : (Tasks.spawn cfg).Wired where
  parseSender := rfl
  parseReceiver := rfl
  batchSender := rfl
  batchReceiver := rfl
  drained := fun h => Bool.noConfusion h
  exhausted := fun h => Bool.noConfusion h

theorem wired_move (h : Move cfg job p q) (hw : p.tasks.Wired) : q.tasks.Wired := by
  cases h with
  | tick | stays | joinsParser | joinsBatcher | joinsPublisher | announces | marks => exact { hw with }
  | parserStarts hp | parserSkips hp | parserTakes hp | parserSends hp =>
    have hopen : p.tasks.parser.isDone = false := by simp [hp, Parser.isDone]
    exact { hw with
      parseSender := hw.parseSender.trans (by rw [hopen]; rfl)
      drained := fun hc => absurd (hw.drained hc).1 (by simp [hopen]) }
  | parserFinishes | parserStops | parserFails =>
    exact { hw with
      parseSender := rfl
      drained := fun hc => ⟨rfl, (hw.drained hc).2⟩ }
  | @batcherReceives msg _ hp hc =>
    obtain ⟨hdone, hclosing⟩ := afterRecv_open cfg (taken p.tasks.batcher msg)
    have hopen := isDone_of_receiving _ hp
    exact { hw with
      parseReceiver := hw.parseReceiver.trans (by rw [hopen]; exact congrArg _ hdone.symm)
      batchSender := hw.batchSender.trans (by rw [hopen]; exact congrArg _ hdone.symm)
      drained := fun hc => absurd (hclosing.symm.trans hc) Bool.noConfusion
      exhausted := fun hc => absurd (hw.exhausted hc).1 (by simp [hopen]) }
  | batcherCloses hp hc hs =>
    obtain ⟨hdone, hclosing, hbatch⟩ := afterClose_closing p.tasks.batcher
    have hopen := isDone_of_receiving _ hp
    have hparser : p.tasks.parser.isDone = true := by simpa [hs] using hw.parseSender
    exact { hw with
      parseReceiver := hw.parseReceiver.trans (by rw [hopen]; exact congrArg _ hdone.symm)
      batchSender := hw.batchSender.trans (by rw [hopen]; exact congrArg _ hdone.symm)
      drained := fun _ => ⟨hparser, hc, hbatch⟩
      exhausted := fun hc => absurd (hw.exhausted hc).1 (by simp [hopen]) }
  | batcherTimesOut hp =>
    have hopen := isDone_of_receiving _ hp
    exact { hw with
      parseReceiver := hw.parseReceiver.trans (by rw [hopen]; rfl)
      batchSender := hw.batchSender.trans (by rw [hopen]; rfl)
      drained := fun hc => Bool.noConfusion hc
      exhausted := fun hc => absurd (hw.exhausted hc).1 (by simp [hopen]) }
  | batcherCheckpoints hp saved =>
    obtain ⟨hdone, hclosing⟩ := sizeCheck_open cfg p.tasks.batcher
    have hopen : p.tasks.batcher.isDone = false := by simp [Batcher.isDone, hp]
    exact { hw with
      parseReceiver := hw.parseReceiver.trans (by rw [hopen]; exact congrArg _ hdone.symm)
      batchSender := hw.batchSender.trans (by rw [hopen]; exact congrArg _ hdone.symm)
      drained := fun hc => absurd (hclosing.symm.trans hc) Bool.noConfusion
      exhausted := fun hc => absurd (hw.exhausted hc).1 (by simp [hopen]) }
  | @batcherFlushes messages final hp hc =>
    have hopen : p.tasks.batcher.isDone = false := by simp [Batcher.isDone, hp]
    have hpub : p.tasks.publisher.isDone = false := by simpa [hc] using hw.batchReceiver
    have hfinal : p.tasks.batcher.closing = final := by simp [Batcher.closing, hp]
    refine { hw with
      parseReceiver := hw.parseReceiver.trans ?_
      batchSender := hw.batchSender.trans ?_
      drained := fun hc => hw.drained ?_
      exhausted := fun hc => absurd (hw.exhausted hc).1 (by simp [hopen]) }
    · rw [hopen]
      cases final <;> rfl
    · rw [hopen]
      cases final <;> rfl
    · rw [hfinal]
      cases final
      · exact Bool.noConfusion hc
      · rfl
  | batcherSaves hp saved =>
    have hopen : p.tasks.batcher.isDone = false := by simp [Batcher.isDone, hp]
    have hclosing : p.tasks.batcher.closing = true := by simp [Batcher.closing, hp]
    exact { hw with
      parseReceiver := rfl
      batchSender := rfl
      drained := fun _ => hw.drained hclosing
      exhausted := fun hc => absurd (hw.exhausted hc).1 (by simp [hopen]) }
  | batcherFails hp hr =>
    exact { hw with
      parseReceiver := rfl
      batchSender := rfl
      drained := fun hc => absurd (hr.symm.trans hc) Bool.noConfusion
      exhausted := fun hc => absurd (hw.exhausted hc).1 (by simp [hp]) }
  | @publisherTakes batch _ hp hc =>
    obtain ⟨hdone, hclosing⟩ := publishRest_open batch
    have hopen : p.tasks.publisher.isDone = false := by simp [hp, Publisher.isDone]
    exact { hw with
      batchReceiver := hw.batchReceiver.trans (by rw [hopen]; exact congrArg _ hdone.symm)
      exhausted := fun hc => absurd (hclosing.symm.trans hc) Bool.noConfusion }
  | publisherFinishes hp hc hs =>
    have hbatcher : p.tasks.batcher.isDone = true := by simpa [hs] using hw.batchSender
    exact { hw with
      batchReceiver := rfl
      exhausted := fun _ => ⟨hbatcher, hc⟩ }
  | @publisherConfirms _ rest _ hp hr =>
    obtain ⟨hdone, hclosing⟩ := publishRest_open rest
    have hopen : p.tasks.publisher.isDone = false := by simp [hp, Publisher.isDone]
    exact { hw with
      batchReceiver := hw.batchReceiver.trans (by rw [hopen]; exact congrArg _ hdone.symm)
      exhausted := fun hc => absurd (hclosing.symm.trans hc) Bool.noConfusion }
  | publisherLoses hp hr | publisherFails hp hr =>
    exact { hw with
      batchReceiver := rfl
      exhausted := fun hc => absurd (hr.symm.trans hc) Bool.noConfusion }

/-! ## Conservation -/

end Pipeline

namespace Tasks

/-- No task has failed. -/
def healthy (t : Tasks) : Bool := t.parser.healthy && t.batcher.healthy && t.publisher.healthy

/-- The records that are still between the file and the broker, in file order. -/
def inFlight (job : Job) (t : Tasks) : List DataMessage :=
  t.publisher.rest ++ t.batchChannel.buffer.flatten ++ t.batcher.held ++ t.parseChannel.buffer ++
    (t.parser.remaining job).1

end Tasks

/-- The outcome of the file is still open. -/
def Main.collecting : Main → Bool
  | .marking _ _ => false
  | .finished _ _ _ => false
  | _ => true

/-- The number of records a file counts as delivered with, once it is announced. -/
def Main.succeeded : Main → Option Nat
  | .marking true totalCount => some totalCount
  | .finished true totalCount _ => some totalCount
  | _ => none

namespace Pipeline

variable {cfg : PipelineConfig} {job : Job} {base : List Attempt} {p q : Pipeline}

/-- What was confirmed since `base` and what is in flight make up the file. -/
structure Flow (job : Job) (base : List Attempt) (p : Pipeline) : Prop where
  delivered : ∃ attempts sent, p.shared.log = base ++ attempts ∧
    Burst job.dataType (sent.map .data) attempts ∧ sent ++ p.tasks.inFlight job = job.records
  outcome : (p.tasks.parser.remaining job).2 = job.sequential.2
  counted : p.tasks.batcher.totalRecords + p.tasks.parseChannel.buffer.length +
    (p.tasks.parser.remaining job).1.length = job.records.length

theorem remaining_skip {line : String} {rest : List (Except String String)} {count : Nat}
    (hm : job.message line = none) :
    (Parser.reading rest count).remaining job =
      (Parser.reading (.ok line :: rest) count).remaining job := by
  simp only [Parser.remaining, JsonlParser.parseLines, hm]

theorem remaining_take {line : String} {rest : List (Except String String)} {count : Nat}
    {msg : DataMessage} (hm : job.message line = some msg) :
    (Parser.sending msg rest count).remaining job =
      (Parser.reading (.ok line :: rest) count).remaining job := by
  simp only [Parser.remaining, JsonlParser.parseLines, hm, reduceCtorEq, if_false, Option.map_none]

variable (job) in
theorem remaining_send (msg : DataMessage) (rest : List (Except String String)) (count : Nat) :
    (Parser.sending msg rest count).remaining job =
      (msg :: ((Parser.reading rest (count + 1)).remaining job).1,
        ((Parser.reading rest (count + 1)).remaining job).2) := rfl

theorem flow_start (s : Shared) : Flow job s.log (start cfg job s) where
  delivered := ⟨[], [], by simp [start, Shared.save], Burst.nil _, rfl⟩
  outcome := rfl
  counted := by simp [start, Tasks.spawn, Channel.new, Parser.remaining, Job.records]

/-- A move that neither publishes nor touches the batcher's count keeps the flow when it keeps
what is in flight and what the parser will return. -/
theorem Flow.of_inFlight_eq (hf : Flow job base p) (hlog : q.shared.log = p.shared.log)
    (hflight : q.tasks.inFlight job = p.tasks.inFlight job)
    (houtcome : (q.tasks.parser.remaining job).2 = (p.tasks.parser.remaining job).2)
    (hcount : q.tasks.batcher.totalRecords + q.tasks.parseChannel.buffer.length +
        (q.tasks.parser.remaining job).1.length =
      p.tasks.batcher.totalRecords + p.tasks.parseChannel.buffer.length +
        (p.tasks.parser.remaining job).1.length) : Flow job base q where
  delivered := by
    obtain ⟨attempts, sent, hl, hb, hs⟩ := hf.delivered
    exact ⟨attempts, sent, hlog.trans hl, hb, by rw [hflight, hs]⟩
  outcome := houtcome.trans hf.outcome
  counted := hcount.trans hf.counted

/-- A parser that moves without sending has as much left as before. -/
theorem Flow.setParser (hf : Flow job base p) {parser : Parser}
    (hrem : parser.remaining job = p.tasks.parser.remaining job) :
    Flow job base (p.setParser parser) := by
  refine hf.of_inFlight_eq rfl ?_ (congrArg Prod.snd hrem) ?_
  · simp only [Tasks.inFlight, Pipeline.setParser, hrem]
  · simp only [Pipeline.setParser, hrem]

/-- A batcher that moves without receiving or flushing holds as much as before. -/
theorem Flow.setBatcher (hf : Flow job base p) {b : Batcher} (hheld : b.held = p.tasks.batcher.held)
    (htotal : b.totalRecords = p.tasks.batcher.totalRecords) :
    Flow job base (p.setBatcher b) := by
  refine hf.of_inFlight_eq rfl ?_ rfl ?_
  · simp only [Tasks.inFlight, Pipeline.setBatcher, hheld]
  · simp only [Pipeline.setBatcher, htotal]

theorem flow_move (h : Move cfg job p q) (hw : p.tasks.Wired) (hq : q.tasks.healthy = true)
    (hmain : q.tasks.main.collecting = true) (hf : Flow job base p) : Flow job base q := by
  simp only [Tasks.healthy, Bool.and_eq_true] at hq
  obtain ⟨⟨hparser, hbatcher⟩, hpublisher⟩ := hq
  cases h with
  | tick | stays | joinsParser | joinsBatcher | joinsPublisher =>
    exact hf.of_inFlight_eq rfl rfl rfl rfl
  | announces | marks => cases hmain
  | parserStarts hp ho =>
    exact hf.setParser (by rw [hp]; simp only [Parser.remaining, Job.sequential, ho])
  | parserSkips hp hm => exact hf.setParser (by rw [hp, remaining_skip hm])
  | parserTakes hp hm => exact hf.setParser (by rw [hp, remaining_take hm])
  | @parserSends msg rest count hp hc =>
    have hrem := remaining_send job msg rest count
    rw [← hp] at hrem
    refine hf.of_inFlight_eq rfl ?_ (by rw [hrem]; rfl) ?_
    · simp [Tasks.inFlight, Pipeline.setParser, setParseBuffer, hrem]
    · simp only [Pipeline.setParser, setParseBuffer, hrem, List.length_append, List.length_cons,
        List.length_nil]
      omega
  | @parserFinishes count hp =>
    have hrem : (Parser.done (.returned count)).remaining job = p.tasks.parser.remaining job := by
      rw [hp]
      rfl
    exact (hf.setParser hrem).of_inFlight_eq rfl rfl rfl rfl
  | parserStops hp hc =>
    -- a receiver dropped without a failure was drained, and then the parser had ended
    have hdone : p.tasks.batcher.isDone = true := by simpa [hc] using hw.parseReceiver
    have hclosing : p.tasks.batcher.closing = true := by
      unfold Batcher.isDone at hdone
      unfold Batcher.healthy at hbatcher
      unfold Batcher.closing
      cases hphase : p.tasks.batcher.phase <;> simp_all [parserDone]
    have hparserDone := (hw.drained hclosing).1
    simp [hp, Parser.isDone] at hparserDone
  | parserFails hp hr => exact absurd (hr.symm.trans hparser) Bool.noConfusion
  | @batcherReceives msg buffer hp hc =>
    have hheld := afterRecv_held cfg p.tasks.batcher msg
    have htotal := afterRecv_totalRecords cfg p.tasks.batcher msg
    refine hf.of_inFlight_eq rfl ?_ rfl ?_
    · simp [Tasks.inFlight, Pipeline.setBatcher, setParseBuffer, setShared, hheld,
        held_of_receiving _ hp, hc]
    · simp only [Pipeline.setBatcher, setParseBuffer, setShared, htotal, hc, List.length_cons]
      omega
  | batcherCloses hp hc hs =>
    exact hf.setBatcher ((afterClose_held _).trans (held_of_receiving _ hp).symm)
      (afterClose_totalRecords _)
  | batcherTimesOut hp =>
    exact hf.setBatcher ((List.append_nil _).trans (held_of_receiving _ hp).symm) rfl
  | batcherCheckpoints hp saved =>
    have hheld : p.tasks.batcher.held = p.tasks.batcher.batch := by simp [Batcher.held, hp]
    exact (hf.setBatcher ((sizeCheck_held cfg _).trans hheld.symm)
      (sizeCheck_totalRecords cfg _)).of_inFlight_eq rfl rfl rfl rfl
  | @batcherFlushes messages final hp hc =>
    refine hf.of_inFlight_eq rfl ?_ rfl rfl
    have hheld : p.tasks.batcher.held = messages ++ p.tasks.batcher.batch := by
      simp [Batcher.held, hp]
    have hafter : ({ p.tasks.batcher with
        phase := if final then .saving else .receiving
        totalBatches := p.tasks.batcher.totalBatches + 1 } : Batcher).held =
          p.tasks.batcher.batch := by
      cases final <;> rfl
    simp only [Tasks.inFlight, Pipeline.setBatcher, setBatchBuffer, hheld, hafter]
    simp
  | batcherSaves hp saved =>
    refine hf.of_inFlight_eq rfl ?_ rfl rfl
    have hheld : p.tasks.batcher.held = p.tasks.batcher.batch := by simp [Batcher.held, hp]
    have hafter : ({ p.tasks.batcher with phase := .done (.returned ()) } : Batcher).held =
        p.tasks.batcher.batch := rfl
    simp only [Tasks.inFlight, batcherDone, setShared, hheld, hafter, Channel.dropReceiver_buffer,
      Channel.dropSender_buffer]
  | batcherFails hp hr => exact absurd (hr.symm.trans hbatcher) Bool.noConfusion
  | @publisherTakes batch buffer hp hc =>
    refine hf.of_inFlight_eq rfl ?_ rfl rfl
    have hwaiting : p.tasks.publisher.rest = [] := by simp [hp, Publisher.rest]
    simp [Tasks.inFlight, setPublisher, setBatchBuffer, rest_publishRest, hwaiting, hc]
  | publisherFinishes hp hc hs =>
    refine hf.of_inFlight_eq rfl ?_ rfl rfl
    simp [Tasks.inFlight, publisherDone, hp, Publisher.rest]
  | @publisherConfirms msg rest reply hp hr =>
    obtain ⟨attempts, sent, hlog, hburst, hsent⟩ := hf.delivered
    refine ⟨⟨attempts ++ [⟨job.dataType, .data msg, reply, p.shared.now⟩], sent ++ [msg], ?_, ?_, ?_⟩,
      hf.outcome, hf.counted⟩
    · simp only [setShared, Shared.publish, hlog, List.append_assoc]
    · rw [List.map_append]
      exact hburst.snoc rfl hr
    · have hpublishing : p.tasks.publisher.rest = msg :: rest := by simp [hp, Publisher.rest]
      rw [← hsent]
      simp [Tasks.inFlight, setPublisher, setShared, rest_publishRest, hpublishing]
  | publisherLoses hp hr | publisherFails hp hr =>
    exact absurd (hr.symm.trans hpublisher) Bool.noConfusion

/-! ## A task that ended stays as it ended -/

theorem parser_fixed (h : Move cfg job p q) (hd : p.tasks.parser.isDone = true) :
    q.tasks.parser = p.tasks.parser := by
  cases h with
  | parserStarts hp | parserSkips hp | parserTakes hp | parserSends hp | parserFinishes hp
  | parserStops hp => simp [hp, Parser.isDone] at hd
  | parserFails hp => simp [hp] at hd
  | _ => rfl

theorem batcher_fixed (h : Move cfg job p q) (hd : p.tasks.batcher.isDone = true) :
    q.tasks.batcher = p.tasks.batcher := by
  cases h with
  | batcherReceives hp | batcherCloses hp | batcherTimesOut hp | batcherCheckpoints hp
  | batcherFlushes hp | batcherSaves hp => simp [hp, Batcher.isDone] at hd
  | batcherFails hp => simp [hp] at hd
  | _ => rfl

theorem publisher_fixed (h : Move cfg job p q) (hd : p.tasks.publisher.isDone = true) :
    q.tasks.publisher = p.tasks.publisher := by
  cases h with
  | publisherTakes hp | publisherFinishes hp | publisherConfirms hp | publisherLoses hp =>
    simp [hp, Publisher.isDone] at hd
  | publisherFails hp => simp [hp] at hd
  | _ => rfl

theorem healthy_of_move (h : Move cfg job p q) (hq : q.tasks.healthy = true) :
    p.tasks.healthy = true := by
  simp only [Tasks.healthy, Bool.and_eq_true] at hq ⊢
  obtain ⟨⟨hparser, hbatcher⟩, hpublisher⟩ := hq
  refine ⟨⟨?_, ?_⟩, ?_⟩
  · by_contra hbad
    rw [Bool.not_eq_true] at hbad
    rw [parser_fixed h (Parser.isDone_of_unhealthy hbad)] at hparser
    exact absurd (hbad.symm.trans hparser) Bool.noConfusion
  · by_contra hbad
    rw [Bool.not_eq_true] at hbad
    rw [batcher_fixed h (Batcher.isDone_of_unhealthy hbad)] at hbatcher
    exact absurd (hbad.symm.trans hbatcher) Bool.noConfusion
  · by_contra hbad
    rw [Bool.not_eq_true] at hbad
    rw [publisher_fixed h (Publisher.isDone_of_unhealthy hbad)] at hpublisher
    exact absurd (hbad.symm.trans hpublisher) Bool.noConfusion

/-! ## What the orchestrator knows -/

/-- What the handles awaited so far have told it. -/
def Joined (t : Tasks) : Prop :=
  match t.main with
  | .joinParser => True
  | .joinBatcher fileSuccess totalCount =>
    t.parser.isDone = true ∧ (fileSuccess = true → t.parser = .done (.returned totalCount))
  | .joinPublisher fileSuccess totalCount =>
    t.parser.isDone = true ∧ t.batcher.isDone = true ∧
      (fileSuccess = true → t.parser = .done (.returned totalCount) ∧
        t.batcher.phase = .done (.returned ()))
  | .announcing totalCount =>
    t.parser = .done (.returned totalCount) ∧ t.batcher.phase = .done (.returned ()) ∧
      t.publisher = .done (.returned ())
  | _ => t.parser.isDone = true ∧ t.batcher.isDone = true ∧ t.publisher.isDone = true

/-- Since `base` the whole file was confirmed, record by record, and then its completion. -/
def Delivered (job : Job) (base log : List Attempt) (totalCount : Nat) : Prop :=
  ∃ attempts announcement, log = base ++ (attempts ++ [announcement]) ∧
    Burst job.dataType (job.records.map .data) attempts ∧
    announcement.exchange = job.dataType ∧ announcement.confirmed ∧
    (∃ timestamp, announcement.message = .fileComplete {
      dataType := job.dataType.asStr, timestamp, totalProcessed := totalCount, file := job.fileName }) ∧
    job.sequential.2 = .ok totalCount

structure Sound (job : Job) (base : List Attempt) (p : Pipeline) : Prop where
  wired : p.tasks.Wired
  flow : p.tasks.healthy = true → p.tasks.main.collecting = true → Flow job base p
  joined : Joined p.tasks
  announced : ∀ n, p.tasks.main.succeeded = some n →
    Delivered job base p.shared.log n ∧ p.tasks.batcher.totalRecords = n

theorem joined_of_fixed {t t' : Tasks} (hmain : t'.main = t.main)
    (hparser : t.parser.isDone = true → t'.parser = t.parser)
    (hbatcher : t.batcher.isDone = true → t'.batcher = t.batcher)
    (hpublisher : t.publisher.isDone = true → t'.publisher = t.publisher) (hj : Joined t) :
    Joined t' := by
  unfold Joined at hj ⊢
  rw [hmain]
  cases hm : t.main with
  | joinParser => trivial
  | joinBatcher fileSuccess totalCount =>
    rw [hm] at hj
    rw [hparser hj.1]
    exact hj
  | joinPublisher fileSuccess totalCount =>
    rw [hm] at hj
    rw [hparser hj.1, hbatcher hj.2.1]
    exact hj
  | announcing totalCount =>
    rw [hm] at hj
    obtain ⟨hp, hb, hpub⟩ := hj
    rw [hparser (by rw [hp]; rfl), hbatcher (by simp [Batcher.isDone, hb]),
      hpublisher (by rw [hpub]; rfl)]
    exact ⟨hp, hb, hpub⟩
  | marking fileSuccess totalCount | finished fileSuccess totalCount saved =>
    rw [hm] at hj
    rw [hparser hj.1, hbatcher hj.2.1, hpublisher hj.2.2]
    exact hj

theorem joined_move (h : Move cfg job p q) (hj : Joined p.tasks) : Joined q.tasks := by
  have hfixed := fun hmain => joined_of_fixed hmain (parser_fixed h) (batcher_fixed h)
    (publisher_fixed h) hj
  cases h with
  | @joinsParser result hp hd =>
    have hdone : p.tasks.parser.isDone = true := by rw [hd]; rfl
    cases result with
    | returned count => exact ⟨hdone, fun _ => hd⟩
    | failed e => exact ⟨hdone, fun hs => Bool.noConfusion hs⟩
    | panicked => exact ⟨hdone, fun hs => Bool.noConfusion hs⟩
  | @joinsBatcher fileSuccess totalCount result hp hd =>
    unfold Joined at hj
    rw [hp] at hj
    refine ⟨hj.1, by simp [setMain, Batcher.isDone, hd], fun hs => ?_⟩
    rw [Bool.and_eq_true] at hs
    refine ⟨hj.2 hs.1, ?_⟩
    cases result with
    | returned => exact hd
    | failed e => exact Bool.noConfusion hs.2
    | panicked => exact Bool.noConfusion hs.2
  | @joinsPublisher fileSuccess totalCount result hp hd =>
    unfold Joined at hj
    rw [hp] at hj
    have hdone : p.tasks.publisher.isDone = true := by rw [hd]; rfl
    cases hs : fileSuccess && result.isReturned with
    | false => exact ⟨hj.1, hj.2.1, hdone⟩
    | true =>
      rw [Bool.and_eq_true] at hs
      obtain ⟨hparser, hbatcher⟩ := hj.2.2 hs.1
      cases result with
      | returned => exact ⟨hparser, hbatcher, hd⟩
      | failed e => exact Bool.noConfusion hs.2
      | panicked => exact Bool.noConfusion hs.2
  | @announces totalCount hp reply =>
    unfold Joined at hj
    rw [hp] at hj
    obtain ⟨hparser, hbatcher, hpublisher⟩ := hj
    exact ⟨by simp [setMain, setShared, hparser, Parser.isDone],
      by simp [setMain, setShared, Batcher.isDone, hbatcher],
      by simp [setMain, setShared, hpublisher, Publisher.isDone]⟩
  | marks hp saved =>
    unfold Joined at hj
    rw [hp] at hj
    exact hj
  | _ => exact hfixed rfl

/-- When all three tasks returned, nothing is in flight: the whole file was confirmed. -/
theorem delivered_of_returned {totalCount : Nat} (hw : p.tasks.Wired) (hf : Flow job base p)
    (hparser : p.tasks.parser = .done (.returned totalCount))
    (hbatcher : p.tasks.batcher.phase = .done (.returned ()))
    (hpublisher : p.tasks.publisher = .done (.returned ())) :
    (∃ attempts, p.shared.log = base ++ attempts ∧
      Burst job.dataType (job.records.map .data) attempts) ∧
    job.sequential.2 = .ok totalCount ∧ p.tasks.batcher.totalRecords = job.records.length := by
  obtain ⟨-, hparse, hbatch⟩ := hw.drained (by simp [Batcher.closing, hbatcher, TaskResult.isReturned])
  obtain ⟨-, hbuffer⟩ := hw.exhausted (by simp [hpublisher, Publisher.closing, TaskResult.isReturned])
  have hrem : p.tasks.parser.remaining job = ([], .ok totalCount) := by rw [hparser]; rfl
  have hempty : p.tasks.inFlight job = [] := by
    simp [Tasks.inFlight, hpublisher, Publisher.rest, hbuffer, Batcher.held, hbatcher, hbatch, hparse,
      hrem]
  obtain ⟨attempts, sent, hlog, hburst, hsent⟩ := hf.delivered
  rw [hempty, List.append_nil] at hsent
  refine ⟨⟨attempts, hlog, hsent ▸ hburst⟩, ?_, ?_⟩
  · rw [← hf.outcome, hrem]
  · have hcount := hf.counted
    rw [hparse, hrem] at hcount
    simpa using hcount

theorem collecting_of_move (h : Move cfg job p q) (hq : q.tasks.main.collecting = true) :
    p.tasks.main.collecting = true := by
  cases h with
  | joinsParser hp | joinsBatcher hp | joinsPublisher hp => rw [hp]; rfl
  | announces | marks => cases hq
  | _ => exact hq

/-- Once announced, the file only waits to be marked. -/
theorem log_of_succeeded (h : Move cfg job p q) (hj : Joined p.tasks) {n : Nat}
    (hs : p.tasks.main.succeeded = some n) :
    q.shared.log = p.shared.log ∧ q.tasks.batcher = p.tasks.batcher ∧
      q.tasks.main.succeeded = some n := by
  obtain ⟨hbatcher, hdone⟩ : p.tasks.batcher.isDone = true ∧ p.tasks.publisher.isDone = true := by
    unfold Joined at hj
    cases hm : p.tasks.main with
    | marking fileSuccess totalCount | finished fileSuccess totalCount saved =>
      rw [hm] at hj
      exact hj.2
    | _ => simp [hm, Main.succeeded] at hs
  have hfixed := batcher_fixed h hbatcher
  cases h with
  | joinsParser hp | joinsBatcher hp | joinsPublisher hp | announces hp =>
    simp [hp, Main.succeeded] at hs
  | publisherConfirms hp | publisherLoses hp => simp [hp, Publisher.isDone] at hdone
  | @marks fileSuccess totalCount hp saved =>
    rw [hp] at hs
    cases fileSuccess with
    | false => cases hs
    | true => exact ⟨rfl, hfixed, hs⟩
  | _ => exact ⟨rfl, hfixed, hs⟩

/-- Only a confirmed announcement makes a file succeed. -/
theorem announced_of_succeeded (h : Move cfg job p q) (hp : p.tasks.main.succeeded = none) {n : Nat}
    (hq : q.tasks.main.succeeded = some n) :
    p.tasks.main = .announcing n ∧ q.tasks.batcher = p.tasks.batcher ∧
      ∃ reply : Reply, reply.delivered = true ∧
        q.shared = p.shared.publish job.dataType (p.fileComplete job n) reply := by
  cases h with
  | @announces totalCount hm reply =>
    cases hr : reply.delivered with
    | false => simp [setMain, setShared, hr, Main.succeeded] at hq
    | true =>
      simp only [setMain, setShared, hr, Main.succeeded, Option.some.injEq] at hq
      subst hq
      exact ⟨hm, rfl, reply, hr, rfl⟩
  | @marks fileSuccess totalCount hm saved =>
    cases fileSuccess with
    | false => cases hq
    | true => rw [hm] at hp; cases hp
  | @joinsParser result =>
    cases result <;> cases hq
  | joinsBatcher => cases hq
  | @joinsPublisher fileSuccess totalCount result =>
    simp only [setMain] at hq
    split at hq <;> cases hq
  | _ => exact absurd (hp.symm.trans hq) (by simp)

theorem length_records {n : Nat} (h : job.sequential.2 = .ok n) : n = job.records.length := by
  unfold Job.records
  unfold Job.sequential at h ⊢
  cases hopen : job.opened with
  | error e => rw [hopen] at h; cases h
  | ok lines =>
    rw [hopen] at h
    simpa using JsonlParser.parseLines_count job.message job.path lines 0 h

theorem sound_start (s : Shared) : Sound job s.log (start cfg job s) where
  wired := wired_spawn
  flow := fun _ _ => flow_start s
  joined := trivial
  announced := fun _ h => by cases h

/-- All three tasks returned before the file is announced. -/
theorem returned_of_announcing (hs : Sound job base p) {n : Nat}
    (hm : p.tasks.main = .announcing n) :
    (∃ attempts, p.shared.log = base ++ attempts ∧
      Burst job.dataType (job.records.map .data) attempts) ∧
    job.sequential.2 = .ok n ∧ p.tasks.batcher.totalRecords = job.records.length := by
  have hj := hs.joined
  unfold Joined at hj
  rw [hm] at hj
  obtain ⟨hparser, hbatcher, hpublisher⟩ := hj
  have hhealthy : p.tasks.healthy = true := by
    simp [Tasks.healthy, hparser, Parser.healthy, Batcher.healthy, hbatcher, hpublisher,
      Publisher.healthy, TaskResult.isReturned]
  exact delivered_of_returned hs.wired (hs.flow hhealthy (by rw [hm]; rfl)) hparser hbatcher
    hpublisher

theorem announcing_counted (hs : Sound job base p) {n : Nat} (hm : p.tasks.main = .announcing n) :
    job.sequential.2 = .ok n :=
  (returned_of_announcing hs hm).2.1

theorem sound_move (h : Move cfg job p q) (hs : Sound job base p) : Sound job base q where
  wired := wired_move h hs.wired
  flow hq hmain := flow_move h hs.wired hq hmain
    (hs.flow (healthy_of_move h hq) (collecting_of_move h hmain))
  joined := joined_move h hs.joined
  announced n hn := by
    cases hp : p.tasks.main.succeeded with
    | some m =>
      obtain ⟨hlog, hbatcher, hq⟩ := log_of_succeeded h hs.joined hp
      rw [hq] at hn
      cases hn
      rw [hlog, hbatcher]
      exact hs.announced _ hp
    | none =>
      obtain ⟨hm, hbatch, reply, hr, hshared⟩ := announced_of_succeeded h hp hn
      obtain ⟨⟨attempts, hlog, hburst⟩, hresult, htotal⟩ := returned_of_announcing hs hm
      refine ⟨⟨attempts, ⟨job.dataType, p.fileComplete job n, reply, p.shared.now⟩, ?_, hburst, rfl, hr,
        ⟨p.shared.now, rfl⟩, hresult⟩, by rw [hbatch, htotal, length_records hresult]⟩
      rw [hshared]
      simp only [Shared.publish, hlog, List.append_assoc]

end Pipeline

end MusicbrainzIngestion
