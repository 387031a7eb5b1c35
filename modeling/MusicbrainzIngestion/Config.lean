import MusicbrainzIngestion.Batching
import MusicbrainzIngestion.Base.FixedWidth

/-! The configuration read from the environment, and what its numbers are used for without
another check: the wait between two runs, the room of the parser's channel, and the memory
reserved for a batch. -/

namespace MusicbrainzIngestion
open Base

/-- What the program is compiled for and runs on. A message takes more than no memory, and
not more than a small record does. -/
structure Platform where
  usizeBits : Nat
  messageSize : Nat
  numCpus : BitVec usizeBits
  wide : 32 ≤ usizeBits
  messageSize_pos : 0 < messageSize
  messageSize_lt : messageSize < 2 ^ 16

namespace Platform

def usizeMax (p : Platform) : Nat := 2 ^ p.usizeBits - 1

def isizeMax (p : Platform) : Nat := 2 ^ (p.usizeBits - 1) - 1

end Platform

structure ExtractorConfig (p : Platform) where
  amqpConnection : String
  periodicCheckDays : BitVec 64
  healthPort : BitVec 16
  maxWorkers : BitVec p.usizeBits
  batchSize : BitVec p.usizeBits
  queueSize : BitVec p.usizeBits
  progressLogInterval : BitVec p.usizeBits
  stateSaveInterval : BitVec p.usizeBits
  musicbrainzRoot : String
  musicbrainzExchangePrefix : String
  musicbrainzDumpUrl : String

/-- The variables that are set to a text, and the files they may point to. -/
structure Environment where
  var : String → Option String
  readToString : String → Except String String

namespace Environment

variable (env : Environment)

def readSecret (envVar fallback : String) : Except Error String :=
  match env.var (envVar ++ "_FILE") with
  | some filePath =>
    match env.readToString filePath with
    | .ok s => .ok (Text.trim s)
    | .error e => .error ["Cannot read secret file for " ++ envVar ++ ": \"" ++ filePath ++ "\"", e]
  | none => .ok ((env.var envVar).getD fallback)

/-- The number a variable is set to, else the fallback, whose own text is read when it is not set. -/
def number (w : Nat) (name text : String) (fallback : BitVec w) : BitVec w :=
  (parseUnsigned w ((env.var name).getD text)).getD fallback

end Environment

/-- `max(1)`. -/
def atLeastOne {w : Nat} (n : BitVec w) : BitVec w := if n < 1 then 1 else n

def buildAmqpUrl (encode : String → String) (user password host port : String) : String :=
  "amqp://" ++ encode user ++ ":" ++ encode password ++ "@" ++ host ++ ":" ++ port ++ "/%2F"

def DEFAULT_EXCHANGE_PREFIX : String := "groovemap-musicbrainz"

namespace ExtractorConfig

section
variable (p : Platform) (encode : String → String) (env : Environment)

def fromEnv : Except Error (ExtractorConfig p) := do
  let user ← env.readSecret "RABBITMQ_USERNAME" "groovemap"
  let password ← env.readSecret "RABBITMQ_PASSWORD" "groovemap"
  let host := (env.var "RABBITMQ_HOST").getD "rabbitmq"
  let port := (env.var "RABBITMQ_PORT").getD "5672"
  return {
    amqpConnection := buildAmqpUrl encode user password host port
    periodicCheckDays := atLeastOne (env.number 64 "PERIODIC_CHECK_DAYS" "15" 15)
    maxWorkers := atLeastOne
      (env.number p.usizeBits "MAX_WORKERS" (toString p.numCpus.toNat) p.numCpus)
    batchSize := atLeastOne (env.number p.usizeBits "BATCH_SIZE" "100" 100)
    musicbrainzRoot := (env.var "MUSICBRAINZ_ROOT").getD "/musicbrainz-data"
    musicbrainzExchangePrefix := (env.var "MUSICBRAINZ_EXCHANGE_PREFIX").getD DEFAULT_EXCHANGE_PREFIX
    musicbrainzDumpUrl := (env.var "MUSICBRAINZ_DUMP_URL").getD
      "https://data.metabrainz.org/pub/musicbrainz/data/json-dumps/"
    healthPort := env.number 16 "HEALTH_PORT" "8000" 8000
    queueSize := atLeastOne (env.number p.usizeBits "QUEUE_SIZE" "5000" 5000)
    progressLogInterval := atLeastOne (env.number p.usizeBits "PROGRESS_LOG_INTERVAL" "1000" 1000)
    stateSaveInterval := atLeastOne (env.number p.usizeBits "STATE_SAVE_INTERVAL" "5000" 5000) }

end

variable {p : Platform}

/-! ## What the numbers are used for -/

/-- The wait before a periodic check. -/
def checkInterval (days : BitVec 64) : Computed Duration :=
  ((Computed.mul days 24).bind fun hours => (Computed.mul hours 60).bind fun minutes =>
    Computed.mul minutes 60).map .fromSecs

/-- `mpsc::channel`: a capacity it does not accept is a panic. -/
def channel (α : Type) (capacity : BitVec p.usizeBits) : Option (Channel α) :=
  if capacity = 0 ∨ p.usizeMax >>> 3 < capacity.toNat then none else some (.new capacity.toNat)

/-- `Vec::with_capacity` for messages: more bytes than an allocation may have are a panic. That the
system has the memory is taken for granted, a lack of it aborts the process and is no state here. -/
def withCapacity (p : Platform) (n : BitVec p.usizeBits) : Option (List DataMessage) :=
  if p.isizeMax < n.toNat * p.messageSize then none else some []

/-- The settings a file's pipeline runs with. -/
def pipeline (c : ExtractorConfig p) : PipelineConfig where
  batchSize := c.batchSize.toNat
  queueSize := c.queueSize.toNat
  stateSaveInterval := c.stateSaveInterval.toNat
  exchangePrefix := c.musicbrainzExchangePrefix

/-! ## The bounds their users need -/

/-- The days whose seconds 64 bits hold. -/
def mostDays : Nat := 213503982334601

theorem hours_toNat (days : BitVec 64) (h : days.toNat * 24 < 2 ^ 64) :
    (Computed.mul days 24).value.toNat = days.toNat * 24 :=
  Computed.mul_toNat h

theorem minutes_toNat (days : BitVec 64) (h : days.toNat * 1440 < 2 ^ 64) :
    (Computed.mul (Computed.mul days 24).value 60).value.toNat = days.toNat * 1440 := by
  have hhour : (60 : BitVec 64).toNat = 60 := rfl
  have hhours := hours_toNat days (by omega)
  rw [Computed.mul_toNat (by rw [hhours, hhour]; omega), hhours, hhour]
  omega

theorem checkInterval_overflowed (days : BitVec 64) :
    (checkInterval days).overflowed = false ↔ days.toNat ≤ mostDays := by
  have hday : (24 : BitVec 64).toNat = 24 := rfl
  have hhour : (60 : BitVec 64).toNat = 60 := rfl
  have hsteps : (checkInterval days).overflowed = false ↔ days.toNat * 24 < 2 ^ 64 ∧
      (Computed.mul days 24).value.toNat * 60 < 2 ^ 64 ∧
        (Computed.mul (Computed.mul days 24).value 60).value.toNat * 60 < 2 ^ 64 := by
    simp only [checkInterval, Computed.map_overflowed, Computed.bind_overflowed,
      Computed.mul_overflowed, hday, hhour, Bool.or_eq_false_iff, decide_eq_false_iff_not, Nat.not_le]
  rw [hsteps, mostDays]
  constructor
  · rintro ⟨hfits, hmore, hmost⟩
    rw [hours_toNat days hfits] at hmore
    rw [minutes_toNat days (by omega)] at hmost
    omega
  · intro hle
    rw [hours_toNat days (by omega), minutes_toNat days (by omega)]
    omega

theorem checkInterval_nanos {days : BitVec 64} (h : days.toNat ≤ mostDays) :
    (checkInterval days).value.nanos = days.toNat * 86400 * nanosPerSec := by
  have hhour : (60 : BitVec 64).toNat = 60 := rfl
  rw [mostDays] at h
  have hminutes := minutes_toNat days (by omega)
  have hseconds : (Computed.mul (Computed.mul (Computed.mul days 24).value 60).value
      60).value.toNat = days.toNat * 86400 := by
    rw [Computed.mul_toNat (by rw [hminutes, hhour]; omega), hminutes, hhour]
    omega
  rw [checkInterval, Computed.map_value, Duration.fromSecs_nanos, Computed.bind_value,
    Computed.bind_value, hseconds]

theorem channel_eq_some {α : Type} {capacity : BitVec p.usizeBits} (h : 1 ≤ capacity.toNat) :
    channel α capacity = some (.new capacity.toNat) ↔ capacity.toNat ≤ p.usizeMax >>> 3 := by
  have hzero : capacity ≠ 0 := by
    intro he
    rw [he, BitVec.ofNat_eq_ofNat, BitVec.toNat_ofNat, Nat.zero_mod] at h
    omega
  unfold channel
  by_cases hlarge : p.usizeMax >>> 3 < capacity.toNat
  · rw [if_pos (.inr hlarge)]
    exact iff_of_false (fun h => by cases h) (by omega)
  · rw [if_neg (not_or.mpr ⟨hzero, hlarge⟩)]
    exact iff_of_true rfl (by omega)

theorem withCapacity_eq_some {n : BitVec p.usizeBits} :
    withCapacity p n = some [] ↔ n.toNat ≤ p.isizeMax / p.messageSize := by
  rw [Nat.le_div_iff_mul_le p.messageSize_pos]
  unfold withCapacity
  by_cases hlarge : p.isizeMax < n.toNat * p.messageSize
  · rw [if_pos hlarge]
    exact iff_of_false (fun h => by cases h) (by omega)
  · rw [if_neg hlarge]
    exact iff_of_true rfl (by omega)

/-- What an accepted configuration owes the code that uses its numbers. -/
structure SafeToRun (c : ExtractorConfig p) : Prop where
  inRange : (checkInterval c.periodicCheckDays).overflowed = false
  interval : (checkInterval c.periodicCheckDays).value.nanos =
    c.periodicCheckDays.toNat * 86400 * nanosPerSec
  monotone : ∀ fewer, fewer ≤ c.periodicCheckDays →
    (checkInterval fewer).value.nanos ≤ (checkInterval c.periodicCheckDays).value.nanos
  day : 86400 * nanosPerSec ≤ (checkInterval c.periodicCheckDays).value.nanos
  capacity : 1 ≤ c.queueSize.toNat ∧ c.queueSize.toNat ≤ p.usizeMax >>> 3
  accepted : channel DataMessage c.queueSize = some (.new c.queueSize.toNat)
  reserved : withCapacity p c.batchSize = some []

theorem safeToRun_iff {c : ExtractorConfig p} (hdays : 1 ≤ c.periodicCheckDays.toNat)
    (hqueue : 1 ≤ c.queueSize.toNat) :
    c.SafeToRun ↔ c.periodicCheckDays.toNat ≤ mostDays ∧
      c.queueSize.toNat ≤ p.usizeMax >>> 3 ∧ c.batchSize.toNat ≤ p.isizeMax / p.messageSize := by
  constructor
  · intro h
    exact ⟨(checkInterval_overflowed _).mp h.inRange, h.capacity.2, withCapacity_eq_some.mp h.reserved⟩
  · rintro ⟨hmost, hlarge, hbatch⟩
    refine ⟨(checkInterval_overflowed _).mpr hmost, checkInterval_nanos hmost, ?_,
      ?_, ⟨hqueue, hlarge⟩, (channel_eq_some hqueue).mpr hlarge, withCapacity_eq_some.mpr hbatch⟩
    · intro fewer hfewer
      have hle : fewer.toNat ≤ c.periodicCheckDays.toNat := hfewer
      rw [checkInterval_nanos hmost, checkInterval_nanos (Nat.le_trans hle hmost)]
      exact Nat.mul_le_mul_right nanosPerSec (Nat.mul_le_mul_right 86400 hle)
    · rw [checkInterval_nanos hmost]
      exact Nat.mul_le_mul_right nanosPerSec (by omega)

/-! ## What the environment must keep to -/

theorem atLeastOne_toNat {w : Nat} (hw : 0 < w) (n : BitVec w) :
    (atLeastOne n).toNat = max n.toNat 1 := by
  have hone : (1 : BitVec w).toNat = 1 := by
    rw [BitVec.ofNat_eq_ofNat, BitVec.toNat_ofNat, Nat.mod_eq_of_lt (Nat.one_lt_two_pow (by omega))]
  unfold atLeastOne
  by_cases h : n < 1
  · have hlt : n.toNat < (1 : BitVec w).toNat := h
    rw [if_pos h]
    omega
  · have hle : (1 : BitVec w).toNat ≤ n.toNat := BitVec.not_lt.mp h
    rw [if_neg h]
    omega

/-- A clamped number is within a bound that the fallback keeps, unless the variable is set to
a number above it. -/
theorem number_le_iff {w : Nat} (hw : 0 < w) (env : Environment) (name : String) {text : String}
    {fallback : BitVec w} (htext : parseUnsigned w text = some fallback) {bound : Nat}
    (hone : 1 ≤ bound) (hfallback : fallback.toNat ≤ bound) :
    (atLeastOne (env.number w name text fallback)).toNat ≤ bound ↔
      ∀ s n, env.var name = some s → parseUnsigned w s = some n → n.toNat ≤ bound := by
  rw [atLeastOne_toNat hw, Environment.number]
  cases hvar : env.var name with
  | none =>
    rw [Option.getD_none, htext, Option.getD_some]
    refine iff_of_true (by omega) ?_
    intro s n hs
    cases hs
  | some s =>
    rw [Option.getD_some]
    cases hparse : parseUnsigned w s with
    | none =>
      rw [Option.getD_none]
      refine iff_of_true (by omega) ?_
      intro s' n hs hn
      cases hs
      rw [hparse] at hn
      cases hn
    | some n =>
      rw [Option.getD_some]
      constructor
      · intro hle s' n' hs hn
        cases hs
        rw [hparse] at hn
        cases hn
        omega
      · intro h
        have hn := h s n rfl hparse
        omega

/-- No credential is in a file that cannot be read. -/
def SecretsReadable (env : Environment) : Prop :=
  ∀ name ∈ ["RABBITMQ_USERNAME", "RABBITMQ_PASSWORD"], ∀ path,
    env.var (name ++ "_FILE") = some path → ∃ s, env.readToString path = .ok s

/-- The three numbers, where they are set to one. -/
structure WithinBounds (p : Platform) (env : Environment) : Prop where
  days : ∀ s n, env.var "PERIODIC_CHECK_DAYS" = some s → parseUnsigned 64 s = some n →
    n.toNat ≤ mostDays
  queue : ∀ s n, env.var "QUEUE_SIZE" = some s → parseUnsigned p.usizeBits s = some n →
    n.toNat ≤ p.usizeMax >>> 3
  batch : ∀ s n, env.var "BATCH_SIZE" = some s → parseUnsigned p.usizeBits s = some n →
    n.toNat ≤ p.isizeMax / p.messageSize

theorem readSecret_ok_iff (env : Environment) (name fallback : String) :
    (∃ s, env.readSecret name fallback = .ok s) ↔
      ∀ path, env.var (name ++ "_FILE") = some path → ∃ s, env.readToString path = .ok s := by
  unfold Environment.readSecret
  cases hvar : env.var (name ++ "_FILE") with
  | none =>
    refine iff_of_true ⟨_, rfl⟩ ?_
    intro path h
    cases h
  | some path =>
    dsimp only
    cases hread : env.readToString path with
    | ok s =>
      refine iff_of_true ⟨_, rfl⟩ ?_
      intro path' h
      cases h
      exact ⟨s, hread⟩
    | error e =>
      refine iff_of_false ?_ ?_
      · rintro ⟨s, h⟩
        cases h
      · intro h
        obtain ⟨s, hs⟩ := h path rfl
        rw [hread] at hs
        cases hs

/-- The credentials decide whether there is a configuration, the other variables what is in it. -/
theorem fromEnv_cases (p : Platform) (encode : String → String) (env : Environment) :
    (¬ SecretsReadable env ∧ ∃ e, fromEnv p encode env = .error e) ∨
    SecretsReadable env ∧ ∃ c, fromEnv p encode env = .ok c ∧
      c.periodicCheckDays = atLeastOne (env.number 64 "PERIODIC_CHECK_DAYS" "15" 15) ∧
      c.queueSize = atLeastOne (env.number p.usizeBits "QUEUE_SIZE" "5000" 5000) ∧
      c.batchSize = atLeastOne (env.number p.usizeBits "BATCH_SIZE" "100" 100) := by
  have hreadable : SecretsReadable env ↔
      (∃ s, env.readSecret "RABBITMQ_USERNAME" "groovemap" = .ok s) ∧
        ∃ s, env.readSecret "RABBITMQ_PASSWORD" "groovemap" = .ok s := by
    rw [readSecret_ok_iff, readSecret_ok_iff]
    simp [SecretsReadable]
  rw [hreadable]
  unfold fromEnv
  cases huser : env.readSecret "RABBITMQ_USERNAME" "groovemap" with
  | error e =>
    refine .inl ⟨?_, e, rfl⟩
    rintro ⟨⟨s, hs⟩, -⟩
    cases hs
  | ok user =>
    cases hpassword : env.readSecret "RABBITMQ_PASSWORD" "groovemap" with
    | error e =>
      refine .inl ⟨?_, e, rfl⟩
      rintro ⟨-, s, hs⟩
      cases hs
    | ok password => exact .inr ⟨⟨⟨user, rfl⟩, password, rfl⟩, _, rfl, rfl, rfl, rfl⟩

/-- What `usize` holds at least, whatever the platform. -/
theorem wide_usize (p : Platform) : 2 ^ 32 ≤ 2 ^ p.usizeBits ∧ 2 ^ 31 ≤ 2 ^ (p.usizeBits - 1) := by
  have hwide := p.wide
  exact ⟨Nat.pow_le_pow_right (by decide) hwide, Nat.pow_le_pow_right (by decide) (by omega)⟩

/-- A fallback of `usize` is what its text reads as. -/
theorem fallback_usize (p : Platform) {text : String} {n : Nat} (hs : unsignedValue text = some n)
    (hn : n < 2 ^ 32) : parseUnsigned p.usizeBits text = some (BitVec.ofNat p.usizeBits n) ∧
      (BitVec.ofNat p.usizeBits n).toNat = n := by
  have hlt : n < 2 ^ p.usizeBits := Nat.lt_of_lt_of_le hn (wide_usize p).1
  exact ⟨parseUnsigned_of_value hs hlt, by rw [BitVec.toNat_ofNat, Nat.mod_eq_of_lt hlt]⟩

/-- An accepted configuration is safe to run exactly when no number is set above its bound. -/
theorem safe_of_env_iff {p : Platform} {encode : String → String} {env : Environment}
    {c : ExtractorConfig p} (hc : fromEnv p encode env = .ok c) :
    c.SafeToRun ↔ WithinBounds p env := by
  obtain ⟨husize, hisize⟩ := wide_usize p
  have hwide : 0 < p.usizeBits := Nat.lt_of_lt_of_le (by decide) p.wide
  have hqueueMax : 5000 ≤ p.usizeMax >>> 3 := by
    rw [Platform.usizeMax, Nat.shiftRight_eq_div_pow]
    omega
  have hbatchMax : 100 ≤ p.isizeMax / p.messageSize := by
    have hsize := p.messageSize_lt
    rw [Nat.le_div_iff_mul_le p.messageSize_pos, Platform.isizeMax]
    omega
  have hqueueText : parseUnsigned p.usizeBits "5000" = some 5000 ∧
      (5000 : BitVec p.usizeBits).toNat = 5000 := fallback_usize p rfl (by decide)
  have hbatchText : parseUnsigned p.usizeBits "100" = some 100 ∧
      (100 : BitVec p.usizeBits).toNat = 100 := fallback_usize p rfl (by decide)
  rcases fromEnv_cases p encode env with ⟨-, e, he⟩ | ⟨-, c', hc', hdays, hqueue, hbatch⟩
  · rw [he] at hc
    cases hc
  · rw [hc'] at hc
    cases hc
    have hdaysOne : 1 ≤ c.periodicCheckDays.toNat := by
      rw [hdays, atLeastOne_toNat (by decide)]
      exact Nat.le_max_right _ _
    have hqueueOne : 1 ≤ c.queueSize.toNat := by
      rw [hqueue, atLeastOne_toNat hwide]
      exact Nat.le_max_right _ _
    rw [safeToRun_iff hdaysOne hqueueOne, hdays, hqueue, hbatch,
      number_le_iff (by decide) env _ rfl (by decide) (by decide),
      number_le_iff hwide env _ hqueueText.1 (by omega) (by rw [hqueueText.2]; exact hqueueMax),
      number_le_iff hwide env _ hbatchText.1 (by omega) (by rw [hbatchText.2]; exact hbatchMax)]
    constructor
    · rintro ⟨hmost, hlarge, hreserved⟩
      exact ⟨hmost, hlarge, hreserved⟩
    · intro h
      exact ⟨h.days, h.queue, h.batch⟩

/-- Every configuration that is accepted is safe to run, exactly when the environment that one
is read from keeps to the bounds. -/
theorem accepted_safe_iff (p : Platform) (encode : String → String) (env : Environment) :
    (∀ c, fromEnv p encode env = .ok c → c.SafeToRun) ↔ (SecretsReadable env → WithinBounds p env) := by
  rcases fromEnv_cases p encode env with ⟨hunreadable, e, he⟩ | ⟨hreadable, c, hc, -⟩
  · refine iff_of_true ?_ (fun h => absurd h hunreadable)
    intro c hc
    rw [he] at hc
    cases hc
  · constructor
    · intro h _
      exact (safe_of_env_iff hc).mp (h c hc)
    · intro h c' hc'
      exact (safe_of_env_iff hc').mpr (h hreadable)

/-- The clamp from below is what batching rests on. -/
theorem batchSize_pos {p : Platform} {encode : String → String} {env : Environment}
    {c : ExtractorConfig p} (hc : fromEnv p encode env = .ok c) : 0 < c.pipeline.batchSize := by
  rcases fromEnv_cases p encode env with ⟨-, e, he⟩ | ⟨-, c', hc', -, -, hbatch⟩
  · rw [he] at hc
    cases hc
  · rw [hc'] at hc
    cases hc
    have hwide : 0 < p.usizeBits := Nat.lt_of_lt_of_le (by decide) p.wide
    rw [pipeline, hbatch, atLeastOne_toNat hwide]
    exact Nat.le_max_right _ _

/-- So no record of a file is lost or sent twice under any configuration that is accepted. -/
theorem accepted_conserves {p : Platform} {encode : String → String} {env : Environment}
    {c : ExtractorConfig p} (hc : fromEnv p encode env = .ok c) {job : Job} {s : Shared}
    {q : Pipeline} {labels : List Pipeline.Label}
    (hrun : (Pipeline.machine c.pipeline job).run (Pipeline.start c.pipeline job s) labels = some q)
    (hmark : ∀ l ∈ labels, ∀ saved, l ≠ .markFile saved) :
    ∃ labels', (Batching.machine c.pipeline job).run (Pipeline.start c.pipeline job s) labels' =
        some q ∧
      Batching.Conserves c.pipeline job s.progress
        ((Batching.machine c.pipeline job).observed (Batching.see job)
          (Pipeline.start c.pipeline job s) labels') q :=
  Batching.conserves_pipeline (batchSize_pos hc) hrun hmark

end ExtractorConfig

/-- A 64-bit machine, and an environment that sets nothing but the days between two checks. -/
def smallServer : Platform where
  usizeBits := 64
  messageSize := 128
  numCpus := 4
  wide := by decide
  messageSize_pos := by decide
  messageSize_lt := by decide

def yearsBetweenChecks : Environment where
  var name := if name = "PERIODIC_CHECK_DAYS" then some "213503982334602" else none
  readToString _ := .error "No such file or directory (os error 2)"

/-- Where overflow is not checked for, that many days are 17 hours. -/
example : (ExtractorConfig.checkInterval 213503982334602).value.nanos = 61184 * nanosPerSec := by
  decide +kernel

/-- One day more than 64 bits hold the seconds of. -/
theorem accepted_not_safe :
    ¬ ∀ c, ExtractorConfig.fromEnv smallServer id yearsBetweenChecks = .ok c → c.SafeToRun := by
  intro h
  cases hc : ExtractorConfig.fromEnv smallServer id yearsBetweenChecks with
  | error e =>
    have hok : (ExtractorConfig.fromEnv smallServer id yearsBetweenChecks).isOk = true := by
      decide +kernel
    rw [hc] at hok
    cases hok
  | ok c =>
    have hbounds := (ExtractorConfig.safe_of_env_iff hc).mp (h c hc)
    have hdays := hbounds.days "213503982334602" 213503982334602 rfl (by decide +kernel)
    revert hdays
    decide

end MusicbrainzIngestion
