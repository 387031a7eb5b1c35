import MusicbrainzIngestion.StateMarker.Fixed

/-! The totals of the download phase against its table. The counter of files is kept beside the
table and asks the entry of a file whether it was counted; an entry that is started again does
not know. The exact operations come first; the machine's are those as long as what was reported
fits. -/

namespace MusicbrainzIngestion
open Base

namespace StateMarker

def isCompleted (status : FileDownloadStatus) : Bool := decide (status.status = .completed)

/-- The number of entries with status completed. -/
def completedDownloads (m : StateMarker) : Nat :=
  m.downloadPhase.downloadsByFile.values.countP isCompleted

/-- The bytes of the entries with status completed. -/
def completedBytes (m : StateMarker) : Nat :=
  ((m.downloadPhase.downloadsByFile.values.filter isCompleted).map
    FileDownloadStatus.bytesDownloaded).sum

/-- The totals of the phase are those of its table. -/
structure DownloadsAgree (m : StateMarker) : Prop where
  files : m.downloadPhase.filesDownloaded = m.completedDownloads
  bytes : m.downloadPhase.bytesDownloaded = m.completedBytes

/-- The exact totals are right after each report of a downloaded file. -/
def AgreesAtReports (m : StateMarker) (ops : List Operation) : Prop :=
  ∀ before f bytes now after, ops = before ++ .fileDownloaded f bytes now :: after →
    DownloadsAgree ((m.applyAll before).fileDownloaded f bytes now)

/-- The machine goes through with each report of a downloaded file, and the totals are right. -/
def CountsEachReport (build : Build) (w : Nat) (m : StateMarker) (ops : List Operation) : Prop :=
  ∀ before f bytes now after, ops = before ++ .fileDownloaded f bytes now :: after →
    ∃ m', Fixed.applyAll build w m (before ++ [.fileDownloaded f bytes now]) = some m' ∧
      DownloadsAgree m'

namespace Operation

/-- The operation is one of the download phase. -/
def isDownload : Operation → Bool
  | .startDownload .. | .startFileDownload .. | .fileDownloaded .. | .fileBytesVerified ..
  | .completeDownload .. => true
  | _ => false

def isStartDownload : Operation → Bool
  | .startDownload .. => true
  | _ => false

/-- The operation reports the file as downloaded. -/
def reports (filename : String) : Operation → Bool
  | .fileDownloaded f .. => decide (f = filename)
  | _ => false

/-- The operation starts the download of the file. -/
def starts (filename : String) : Operation → Bool
  | .startFileDownload f _ => decide (f = filename)
  | _ => false

end Operation

/-- Some file is started again after it was reported, and before another report, with no new start
of the phase between the three. -/
def Restarted (ops : List Operation) : Prop :=
  ∃ first f bytes reported between started rest g bytes' later last,
    ops = first ++ .fileDownloaded f bytes reported :: between ++
      .startFileDownload f started :: rest ++ .fileDownloaded g bytes' later :: last ∧
    (∀ op ∈ between, op.isStartDownload = false) ∧ ∀ op ∈ rest, op.isStartDownload = false

/-- The bytes last reported for each file, by the reports themselves: a start forgets what was
reported. -/
def report (reported : Table String Nat) : Operation → Table String Nat
  | .startDownload .. => ∅
  | .startFileDownload f _ => reported.erase f
  | .fileDownloaded f bytes _ => reported.insert f bytes
  | _ => reported

def reported (ops : List Operation) : Table String Nat := ops.foldl report ∅

/-- At each report, the bytes last reported for the files fit in 64 bits, and the number of these
files in a counter of `w`. -/
def ReportsFit (w : Nat) (ops : List Operation) : Prop :=
  ∀ before f bytes now after, ops = before ++ .fileDownloaded f bytes now :: after →
    Table.sumBy id (reported (before ++ [.fileDownloaded f bytes now])) < 2 ^ 64 ∧
    (reported (before ++ [.fileDownloaded f bytes now])).keys.length < 2 ^ w

/-- The entry of the file has status completed. -/
def downloadDone (m : StateMarker) (filename : String) : Bool :=
  (m.download filename).any isCompleted

/-- One when the operation replaces an entry that was counted. -/
def uncounts (m : StateMarker) : Operation → Nat
  | .startFileDownload f _ => (m.downloadDone f).toNat
  | _ => 0

/-! ## One operation -/

theorem completedDownloads_eq (m : StateMarker) (f : String) :
    m.completedDownloads = (m.downloadDone f).toNat +
      Table.sumBy (fun s => (isCompleted s).toNat) (m.downloadPhase.downloadsByFile.erase f) := by
  unfold completedDownloads downloadDone download
  rw [Table.countP_values, Table.sumBy_eq_lookup_add_erase _ _ f]
  cases m.downloadPhase.downloadsByFile.lookup f <;> rfl

theorem completedDownloads_startFileDownload (m : StateMarker) (f : String) (now : DateTime) :
    (m.startFileDownload f now).completedDownloads + (m.downloadDone f).toNat =
      m.completedDownloads := by
  rw [completedDownloads_eq m f]
  unfold completedDownloads startFileDownload
  rw [Table.countP_values, Table.sumBy_insert]
  simp [isCompleted, Nat.add_comm]

theorem completedDownloads_fileDownloaded (m : StateMarker) (f : String) (bytes : Nat)
    (now : DateTime) :
    (m.fileDownloaded f bytes now).completedDownloads + (m.downloadDone f).toNat =
      m.completedDownloads + 1 := by
  rw [completedDownloads_eq m f]
  unfold completedDownloads fileDownloaded
  rw [Table.countP_values, Table.sumBy_insert]
  simp [isCompleted]
  omega

theorem filesDownloaded_fileDownloaded (m : StateMarker) (f : String) (bytes : Nat)
    (now : DateTime) :
    (m.fileDownloaded f bytes now).downloadPhase.filesDownloaded + (m.downloadDone f).toNat =
      m.downloadPhase.filesDownloaded + 1 := by
  unfold fileDownloaded downloadDone download
  cases hentry : m.downloadPhase.downloadsByFile.lookup f with
  | none => simp [hentry]
  | some status => by_cases h : status.status = .completed <;> simp [hentry, isCompleted, h]

theorem completedDownloads_recordChecksum (m : StateMarker) (f checksum : String) :
    (m.recordChecksum f checksum).completedDownloads = m.completedDownloads := by
  unfold completedDownloads recordChecksum
  rw [Table.countP_values, Table.countP_values]
  exact Table.sumBy_modify _ _ _ fun _ => rfl

/-- Short of a new start of the phase, the counter runs ahead of the table by the entries that
were replaced after they had been counted. -/
theorem filesDownloaded_apply (m : StateMarker) (op : Operation) (h : op.isStartDownload = false) :
    (m.apply op).downloadPhase.filesDownloaded + m.completedDownloads =
      m.downloadPhase.filesDownloaded + (m.apply op).completedDownloads + m.uncounts op := by
  have hsame : ∀ m' : StateMarker, m'.downloadPhase = m.downloadPhase →
      m'.downloadPhase.filesDownloaded + m.completedDownloads =
        m.downloadPhase.filesDownloaded + m'.completedDownloads := by
    intro m' hm
    unfold completedDownloads
    rw [hm]
  cases op with
  | startDownload => cases h
  | startFileDownload f now =>
    have hcount := completedDownloads_startFileDownload m f now
    show m.downloadPhase.filesDownloaded + _ = _ + _ + (m.downloadDone f).toNat
    simp only [apply]
    omega
  | fileDownloaded f bytes now =>
    have hcount := completedDownloads_fileDownloaded m f bytes now
    have hfiles := filesDownloaded_fileDownloaded m f bytes now
    simp only [apply, uncounts]
    omega
  | fileBytesVerified f checksum =>
    have hphase := downloadPhase_fileBytesVerified m f checksum
    have hcount := completedDownloads_recordChecksum m f checksum
    simp only [apply, uncounts, completedDownloads] at hcount ⊢
    rw [hphase, hcount]
    rfl
  | completeDownload | startProcessing | completeProcessing | completeExtraction | saveLoad => rfl
  | startFileProcessing f now => exact hsame _ (downloadPhase_startFileProcessing m f now)
  | updateFileProgress f records messages batches now =>
    exact hsame _ (downloadPhase_updateFileProgress m f records messages batches now)
  | completeFileProcessing f records now =>
    exact hsame _ (downloadPhase_completeFileProcessing m f records now)

theorem downloadDone_recordChecksum (m : StateMarker) (f checksum f' : String) :
    (m.recordChecksum f checksum).downloadDone f' = m.downloadDone f' := by
  unfold downloadDone
  rw [download_recordChecksum]
  split
  · next h =>
    rw [h, Option.any_map]
    rfl
  · rfl

theorem download_of_phase {m m' : StateMarker} (h : m'.downloadPhase = m.downloadPhase)
    (f : String) : m'.download f = m.download f := by
  unfold download
  rw [h]

theorem downloadDone_of_phase {m m' : StateMarker} (h : m'.downloadPhase = m.downloadPhase)
    (f : String) : m'.downloadDone f = m.downloadDone f :=
  congrArg (·.any isCompleted) (download_of_phase h f)

/-- Short of a new start of the phase, an entry is completed by a report, until the file is started
again. -/
theorem downloadDone_apply (m : StateMarker) {op : Operation} (h : op.isStartDownload = false)
    (f : String) :
    (m.apply op).downloadDone f = (op.reports f || (m.downloadDone f && !op.starts f)) := by
  cases op with
  | startDownload => cases h
  | startFileDownload g now =>
    simp only [apply, downloadDone, download_startFileDownload, Operation.reports, Operation.starts]
    by_cases hf : f = g
    · simp [hf, isCompleted]
    · simp [hf, Ne.symm hf]
  | fileDownloaded g bytes now =>
    simp only [apply, downloadDone, download_fileDownloaded, Operation.reports, Operation.starts]
    by_cases hf : f = g
    · simp [hf, isCompleted]
    · simp [hf, Ne.symm hf]
  | fileBytesVerified g checksum =>
    have hphase := downloadDone_of_phase (downloadPhase_fileBytesVerified m g checksum) f
    simp only [apply, hphase, downloadDone_recordChecksum, Operation.reports, Operation.starts,
      Bool.false_or, Bool.not_false, Bool.and_true]
  | completeDownload | startProcessing | completeProcessing | completeExtraction | saveLoad =>
    exact (Bool.and_true _).symm
  | startFileProcessing g now =>
    exact (downloadDone_of_phase (downloadPhase_startFileProcessing m g now) f).trans
      (Bool.and_true _).symm
  | updateFileProgress g records messages batches now =>
    exact (downloadDone_of_phase (downloadPhase_updateFileProgress m g records messages batches now)
      f).trans (Bool.and_true _).symm
  | completeFileProcessing g records now =>
    exact (downloadDone_of_phase (downloadPhase_completeFileProcessing m g records now) f).trans
      (Bool.and_true _).symm

/-! ## The bytes -/

/-- An entry that is not completed has no bytes. -/
def IdleBytes (m : StateMarker) : Prop :=
  ∀ f status, m.download f = some status → isCompleted status = false → status.bytesDownloaded = 0

theorem idleBytes_apply (m : StateMarker) (op : Operation) (h : m.IdleBytes) :
    (m.apply op).IdleBytes := by
  have hsame : ∀ m' : StateMarker, (∀ f, m'.download f = m.download f) → m'.IdleBytes :=
    fun m' hm f status hstatus => h f status ((hm f).symm.trans hstatus)
  cases op with
  | startDownload filesTotal now =>
    intro f status hstatus
    cases hstatus
  | startFileDownload g now =>
    intro f status hstatus hopen
    rw [apply, download_startFileDownload] at hstatus
    split at hstatus
    · cases hstatus
      rfl
    · exact h f status hstatus hopen
  | fileDownloaded g bytes now =>
    intro f status hstatus hopen
    rw [apply, download_fileDownloaded] at hstatus
    split at hstatus
    · cases hstatus
      cases hopen
    · exact h f status hstatus hopen
  | fileBytesVerified g checksum =>
    intro f status hstatus hopen
    rw [apply, download_of_phase (downloadPhase_fileBytesVerified m g checksum),
      download_recordChecksum] at hstatus
    split at hstatus
    · obtain ⟨before, hbefore, rfl⟩ := Option.map_eq_some_iff.mp hstatus
      exact h g before hbefore hopen
    · exact h f status hstatus hopen
  | completeDownload | startProcessing | completeProcessing | completeExtraction | saveLoad =>
    exact hsame _ fun _ => rfl
  | startFileProcessing g now =>
    exact hsame _ (download_of_phase (downloadPhase_startFileProcessing m g now))
  | updateFileProgress g records messages batches now =>
    exact hsame _ (download_of_phase (downloadPhase_updateFileProgress m g records messages batches now))
  | completeFileProcessing g records now =>
    exact hsame _ (download_of_phase (downloadPhase_completeFileProcessing m g records now))

theorem completedBytes_eq {m : StateMarker} (h : m.IdleBytes) :
    m.completedBytes = Table.sumBy FileDownloadStatus.bytesDownloaded
      m.downloadPhase.downloadsByFile := by
  refine Table.sum_filter_values _ _ _ fun status hstatus hopen => ?_
  obtain ⟨f, hf⟩ := Table.mem_values.mp hstatus
  exact h f status hf hopen

/-- The sum is taken anew at each report. -/
theorem bytes_fileDownloaded {m : StateMarker} (h : m.IdleBytes) (f : String) (bytes : Nat)
    (now : DateTime) :
    (m.fileDownloaded f bytes now).downloadPhase.bytesDownloaded =
      (m.fileDownloaded f bytes now).completedBytes :=
  (completedBytes_eq (idleBytes_apply m (.fileDownloaded f bytes now) h)).symm

/-! ## Sequences of operations -/

/-- The counter runs ahead of the table. -/
def Overcounted (m : StateMarker) : Prop := m.completedDownloads < m.downloadPhase.filesDownloaded

theorem completedDownloads_le_apply (m : StateMarker) (op : Operation)
    (h : m.completedDownloads ≤ m.downloadPhase.filesDownloaded) :
    (m.apply op).completedDownloads ≤ (m.apply op).downloadPhase.filesDownloaded := by
  cases hop : op.isStartDownload with
  | true =>
    cases op <;> cases hop
    exact Nat.le_refl _
  | false =>
    have happly := filesDownloaded_apply m op hop
    omega

theorem Overcounted.apply {m : StateMarker} (h : m.Overcounted) (op : Operation)
    (hop : op.isStartDownload = false) : (m.apply op).Overcounted := by
  have happly := filesDownloaded_apply m op hop
  unfold Overcounted at h ⊢
  omega

/-- The start that replaces a counted entry makes the counter run ahead. -/
theorem overcounted_of_starts {m : StateMarker} {f : String} {op : Operation}
    (hle : m.completedDownloads ≤ m.downloadPhase.filesDownloaded) (hdone : m.downloadDone f = true)
    (hop : op.starts f = true) : (m.apply op).Overcounted := by
  cases op with
  | startFileDownload g now =>
    have hg : g = f := by simpa [Operation.starts] using hop
    have happly := filesDownloaded_apply m (.startFileDownload g now) rfl
    rw [uncounts, hg, hdone, Bool.toNat_true] at happly
    rw [hg]
    unfold Overcounted
    omega
  | _ => cases hop

/-- Once a file was reported, its entry is completed or the counter has run ahead, as long as the
phase is not started anew. -/
theorem overcounted_or_done {m : StateMarker} {f : String} {ops : List Operation}
    (hops : ∀ op ∈ ops, op.isStartDownload = false)
    (hle : m.completedDownloads ≤ m.downloadPhase.filesDownloaded)
    (h : m.Overcounted ∨ m.downloadDone f = true) :
    (m.applyAll ops).Overcounted ∨ (m.applyAll ops).downloadDone f = true := by
  induction ops generalizing m with
  | nil => exact h
  | cons op ops ih =>
    have hop := hops op List.mem_cons_self
    refine ih (fun op' hop' => hops op' (List.mem_cons_of_mem _ hop'))
      (completedDownloads_le_apply m op hle) ?_
    rcases h with hover | hdone
    · exact Or.inl (hover.apply op hop)
    · cases hstarts : op.starts f with
      | true => exact Or.inl (overcounted_of_starts hle hdone hstarts)
      | false => exact Or.inr (by simp [downloadDone_apply m hop, hdone, hstarts])

theorem completedDownloads_le {m : StateMarker} (ops : List Operation)
    (h : m.completedDownloads ≤ m.downloadPhase.filesDownloaded) :
    (m.applyAll ops).completedDownloads ≤ (m.applyAll ops).downloadPhase.filesDownloaded :=
  applyAll_invariant (P := fun m => m.completedDownloads ≤ m.downloadPhase.filesDownloaded)
    (fun m op => completedDownloads_le_apply m op) h ops

theorem Overcounted.applyAll {m : StateMarker} (h : m.Overcounted) {ops : List Operation}
    (hops : ∀ op ∈ ops, op.isStartDownload = false) : (m.applyAll ops).Overcounted := by
  induction ops generalizing m with
  | nil => exact h
  | cons op ops ih =>
    exact ih (h.apply op (hops op List.mem_cons_self)) fun op' hop' =>
      hops op' (List.mem_cons_of_mem _ hop')

/-- A start after a report makes the counter run ahead, until the phase is started anew. -/
theorem overcounted_of_restart {m : StateMarker} {f : String} {bytes : Nat}
    {reported started : DateTime} {first between rest : List Operation}
    (hle : m.completedDownloads ≤ m.downloadPhase.filesDownloaded)
    (hbetween : ∀ op ∈ between, op.isStartDownload = false)
    (hrest : ∀ op ∈ rest, op.isStartDownload = false) :
    (m.applyAll (first ++ .fileDownloaded f bytes reported :: between ++
      .startFileDownload f started :: rest)).Overcounted := by
  have hops : first ++ Operation.fileDownloaded f bytes reported :: between ++
      .startFileDownload f started :: rest =
    (first ++ [.fileDownloaded f bytes reported]) ++ between ++ [.startFileDownload f started] ++
      rest := by simp
  rw [hops, applyAll_append]
  refine Overcounted.applyAll ?_ hrest
  rw [applyAll_snoc, applyAll_append]
  have hfirst := completedDownloads_le (first ++ [.fileDownloaded f bytes reported]) hle
  have hdone : (m.applyAll (first ++ [.fileDownloaded f bytes reported])).downloadDone f = true := by
    rw [applyAll_snoc, downloadDone_apply _ rfl]
    simp [Operation.reports]
  rcases overcounted_or_done hbetween hfirst (Or.inr hdone) with hover | hdone'
  · exact hover.apply _ rfl
  · exact overcounted_of_starts (completedDownloads_le _ hfirst) hdone' (by simp [Operation.starts])

/-- A completed entry goes back to a report, with no new start of the phase since. -/
theorem exists_report_of_done {m : StateMarker} {f : String} {ops : List Operation}
    (hnew : m.downloadDone f = false) (h : (m.applyAll ops).downloadDone f = true) :
    ∃ first bytes now between, ops = first ++ .fileDownloaded f bytes now :: between ∧
      ∀ op ∈ between, op.isStartDownload = false := by
  induction ops using List.reverseRecOn with
  | nil => cases hnew.symm.trans h
  | append_singleton ops op ih =>
    rw [applyAll_snoc] at h
    cases hop : op.isStartDownload with
    | true =>
      cases op <;> cases hop
      cases h
    | false =>
      rw [downloadDone_apply _ hop] at h
      cases hreports : op.reports f with
      | true =>
        cases op <;> simp [Operation.reports] at hreports
        subst hreports
        exact ⟨ops, _, _, [], rfl, by simp⟩
      | false =>
        rw [hreports, Bool.false_or, Bool.and_eq_true] at h
        obtain ⟨first, bytes, now, between, rfl, hbetween⟩ := ih h.1
        refine ⟨first, bytes, now, between ++ [op], by simp, ?_⟩
        intro op' hop'
        rcases List.mem_append.mp hop' with hop' | hop'
        · exact hbetween op' hop'
        · rw [List.mem_singleton.mp hop', hop]

/-- A counter that runs ahead goes back to a start after a report. -/
theorem exists_restart_of_overcounted {m : StateMarker} {ops : List Operation}
    (hnew : ∀ f, m.downloadDone f = false) (hexact : ¬ m.Overcounted)
    (h : (m.applyAll ops).Overcounted) :
    ∃ first f bytes reported between started rest,
      ops = first ++ .fileDownloaded f bytes reported :: between ++
        .startFileDownload f started :: rest ∧
      (∀ op ∈ between, op.isStartDownload = false) ∧ ∀ op ∈ rest, op.isStartDownload = false := by
  induction ops using List.reverseRecOn with
  | nil => exact absurd h hexact
  | append_singleton ops op ih =>
    rw [applyAll_snoc] at h
    cases hop : op.isStartDownload with
    | true =>
      cases op <;> cases hop
      exact absurd h (Nat.lt_irrefl _)
    | false =>
      by_cases hover : (m.applyAll ops).Overcounted
      · obtain ⟨first, f, bytes, reported, between, started, rest, rfl, hbetween, hrest⟩ := ih hover
        refine ⟨first, f, bytes, reported, between, started, rest ++ [op], by simp, hbetween, ?_⟩
        intro op' hop'
        rcases List.mem_append.mp hop' with hop' | hop'
        · exact hrest op' hop'
        · rw [List.mem_singleton.mp hop', hop]
      · have happly := filesDownloaded_apply (m.applyAll ops) op hop
        have huncounts : 0 < (m.applyAll ops).uncounts op := by
          unfold Overcounted at h hover
          omega
        cases op with
        | startFileDownload f started =>
          have hdone : (m.applyAll ops).downloadDone f = true := by
            unfold uncounts at huncounts
            cases hd : (m.applyAll ops).downloadDone f with
            | true => rfl
            | false => simp [hd] at huncounts
          obtain ⟨first, bytes, now, between, rfl, hbetween⟩ :=
            exists_report_of_done (hnew f) hdone
          exact ⟨first, f, bytes, now, between, started, [], by simp, hbetween, by simp⟩
        | _ => exact absurd huncounts (Nat.lt_irrefl 0)

/-- From a new marker, the exact totals are those of the table after each report exactly when no
file is started again between its report and another one. -/
theorem agreesAtReports_iff (version : String) (now : DateTime) (ops : List Operation) :
    AgreesAtReports (.new version now) ops ↔ ¬ Restarted ops := by
  have hle : (StateMarker.new version now).completedDownloads ≤
    (StateMarker.new version now).downloadPhase.filesDownloaded := Nat.le_refl 0
  have hidle : (StateMarker.new version now).IdleBytes := fun _ _ h => by cases h
  constructor
  · rintro hcounts ⟨first, f, bytes, reported, between, started, rest, g, bytes', later, last, rfl,
      hbetween, hrest⟩
    have hreport := hcounts _ g bytes' later last rfl
    have hover : Overcounted ((StateMarker.new version now).applyAll (first ++
        .fileDownloaded f bytes reported :: between ++ .startFileDownload f started :: rest)) :=
      overcounted_of_restart hle hbetween hrest
    exact absurd hreport.files.symm
      (Nat.ne_of_lt (hover.apply (.fileDownloaded g bytes' later) rfl))
  · intro hrestarted before f bytes reported after hops
    refine ⟨?_, bytes_fileDownloaded (applyAll_invariant (fun m op => idleBytes_apply m op) hidle _)
      f bytes reported⟩
    by_contra hne
    have hsnoc := applyAll_snoc (.new version now) before (.fileDownloaded f bytes reported)
    have hover : ((StateMarker.new version now).applyAll before).Overcounted := by
      have happly := filesDownloaded_apply ((StateMarker.new version now).applyAll before)
        (.fileDownloaded f bytes reported) rfl
      have hafter := completedDownloads_le (before ++ [.fileDownloaded f bytes reported]) hle
      rw [hsnoc] at hafter
      simp only [StateMarker.apply, uncounts] at happly hafter
      unfold Overcounted
      omega
    obtain ⟨first, g, bytes', reported', between, started, rest, rfl, hbetween, hrest⟩ :=
      exists_restart_of_overcounted (m := .new version now) (fun _ => rfl) (Nat.lt_irrefl 0) hover
    exact hrestarted ⟨first, g, bytes', reported', between, started, rest, f, bytes, reported, after,
      hops, hbetween, hrest⟩

/-! ## What was reported -/

theorem reported_snoc (ops : List Operation) (op : Operation) :
    reported (ops ++ [op]) = report (reported ops) op := by
  rw [reported, List.foldl_append]
  rfl

/-- The completed entries are the files reported, with what was reported for them. -/
theorem lookup_reported (version : String) (now : DateTime) (ops : List Operation) (f : String) :
    (reported ops).lookup f = (((StateMarker.new version now).applyAll ops).download f).bind
      fun status => if isCompleted status then some status.bytesDownloaded else none := by
  induction ops using List.reverseRecOn generalizing f with
  | nil => rfl
  | append_singleton ops op ih =>
    rw [reported_snoc, applyAll_snoc]
    cases op with
    | startDownload filesTotal now => rfl
    | startFileDownload g now =>
      rw [apply, download_startFileDownload, report]
      by_cases hf : f = g
      · rw [hf, AList.lookup_erase, if_pos rfl]
        rfl
      · rw [AList.lookup_erase_ne hf, if_neg hf, ih]
    | fileDownloaded g bytes now =>
      rw [apply, download_fileDownloaded, report]
      by_cases hf : f = g
      · rw [hf, AList.lookup_insert, if_pos rfl]
        rfl
      · rw [AList.lookup_insert_ne hf, if_neg hf, ih]
    | fileBytesVerified g checksum =>
      show (reported ops).lookup f = _
      rw [apply, download_of_phase (downloadPhase_fileBytesVerified _ g checksum),
        download_recordChecksum, ih]
      by_cases hf : f = g
      · rw [if_pos hf, hf, Option.bind_map]
        rfl
      · rw [if_neg hf]
    | completeDownload | startProcessing | completeProcessing | completeExtraction | saveLoad =>
      exact ih f
    | startFileProcessing g now =>
      rw [apply, download_of_phase (downloadPhase_startFileProcessing _ g now)]
      exact ih f
    | updateFileProgress g records messages batches now =>
      rw [apply, download_of_phase (downloadPhase_updateFileProgress _ g records messages batches now)]
      exact ih f
    | completeFileProcessing g records now =>
      rw [apply, download_of_phase (downloadPhase_completeFileProcessing _ g records now)]
      exact ih f

theorem completedDownloads_reported (version : String) (now : DateTime) (ops : List Operation) :
    ((StateMarker.new version now).applyAll ops).completedDownloads = (reported ops).keys.length := by
  unfold completedDownloads
  rw [Table.countP_values, ← Table.sumBy_one]
  refine Table.sumBy_eq_sumBy fun f => ?_
  rw [lookup_reported version now ops f]
  unfold download
  cases ((StateMarker.new version now).applyAll ops).downloadPhase.downloadsByFile.lookup f with
  | none => rfl
  | some status =>
    rw [Option.bind_some]
    cases h : isCompleted status <;> simp [h]

theorem idleBytes_new (version : String) (now : DateTime) (ops : List Operation) :
    ((StateMarker.new version now).applyAll ops).IdleBytes :=
  applyAll_invariant idleBytes_apply (fun _ _ h => by cases h) ops

theorem completedBytes_reported (version : String) (now : DateTime) (ops : List Operation) :
    ((StateMarker.new version now).applyAll ops).completedBytes = Table.sumBy id (reported ops) := by
  have hidle := idleBytes_new version now ops
  rw [completedBytes_eq hidle]
  refine Table.sumBy_eq_sumBy fun f => ?_
  rw [lookup_reported version now ops f]
  show ((download _ f).map _).getD 0 = _
  cases hstatus : ((StateMarker.new version now).applyAll ops).download f with
  | none => rfl
  | some status =>
    rw [Option.bind_some]
    cases h : isCompleted status with
    | true => rfl
    | false => simp [hidle f status hstatus h]

/-! ## The machine -/

section Machine
variable {build : Build} {w : Nat} {m m' : StateMarker} {f : String} {bytes : Nat} {now : DateTime}

/-- No file has been processed yet: the marker is still in its download phase. -/
def Unprocessed (m : StateMarker) : Prop := m.processingPhase.progressByFile = ∅

theorem fileBytesVerified_unprocessed (build : Build) (h : m.Unprocessed) (checksum : String) :
    Fixed.fileBytesVerified build m f checksum = some (m.recordChecksum f checksum, false) ∧
      m.fileBytesVerified f checksum = (m.recordChecksum f checksum, false) := by
  have hnone : m.processedChecksum f = none := by
    unfold processedChecksum progress
    rw [h]
    rfl
  rw [fileBytesVerified_eq, Fixed.fileBytesVerified, hnone]
  exact ⟨rfl, rfl⟩

theorem unprocessed_apply {op : Operation} (hop : op.isDownload = true) (h : m.Unprocessed) :
    (m.apply op).Unprocessed := by
  cases op with
  | startDownload | startFileDownload | fileDownloaded | completeDownload => exact h
  | fileBytesVerified f checksum =>
    rw [apply, (fileBytesVerified_unprocessed .checked h checksum).2]
    exact h
  | _ => cases hop

/-- Only a report computes anything. -/
theorem fixed_apply_eq {op : Operation} (hop : op.isDownload = true)
    (hreport : ∀ f, op.reports f = false) (h : m.Unprocessed) :
    Fixed.apply build w m op = some (m.apply op) := by
  cases op with
  | startDownload | startFileDownload | completeDownload => rfl
  | fileDownloaded f bytes now => simpa [Operation.reports] using hreport f
  | fileBytesVerified f checksum =>
    obtain ⟨hfixed, hexact⟩ := fileBytesVerified_unprocessed build h (f := f) checksum
    rw [Fixed.apply, apply, hfixed, hexact]
    rfl
  | _ => cases hop

theorem filesDownloaded_eq :
    (m.fileDownloaded f bytes now).downloadPhase.filesDownloaded =
      if m.downloadDone f = true then m.downloadPhase.filesDownloaded
      else m.downloadPhase.filesDownloaded + 1 := by
  have hfiles := filesDownloaded_fileDownloaded m f bytes now
  split
  · next h => simp [h] at hfiles; exact hfiles
  · next h => simp [h] at hfiles; exact hfiles

theorem fixed_fileDownloaded_eq :
    Fixed.fileDownloaded build w m f bytes now =
      ((if m.downloadDone f = true then some m.downloadPhase.filesDownloaded
        else increment build w m.downloadPhase.filesDownloaded).bind fun files =>
      (total build FileDownloadStatus.bytesDownloaded
        (m.fileDownloaded f bytes now).downloadPhase.downloadsByFile).bind fun sum =>
      some { m with downloadPhase := { m.downloadPhase with
        downloadsByFile := (m.fileDownloaded f bytes now).downloadPhase.downloadsByFile
        filesDownloaded := files, bytesDownloaded := sum } }) := rfl

/-- A report goes through when the exact totals fit. -/
theorem fixed_fileDownloaded_of_fits
    (hfiles : (m.fileDownloaded f bytes now).downloadPhase.filesDownloaded < 2 ^ w)
    (hbytes : (m.fileDownloaded f bytes now).downloadPhase.bytesDownloaded < 2 ^ 64) :
    Fixed.fileDownloaded build w m f bytes now = some (m.fileDownloaded f bytes now) := by
  have hcount : (if m.downloadDone f = true then some m.downloadPhase.filesDownloaded
      else increment build w m.downloadPhase.filesDownloaded) =
        some (m.fileDownloaded f bytes now).downloadPhase.filesDownloaded := by
    rw [filesDownloaded_eq] at hfiles ⊢
    split
    · rfl
    · next h =>
      rw [if_neg h] at hfiles
      exact increment_of_lt hfiles
  have hsum : total build FileDownloadStatus.bytesDownloaded
      (m.fileDownloaded f bytes now).downloadPhase.downloadsByFile =
        some (m.fileDownloaded f bytes now).downloadPhase.bytesDownloaded := total_of_lt hbytes
  rw [fixed_fileDownloaded_eq, hcount, Option.bind_some, hsum, Option.bind_some]
  rfl

/-- A report that goes through and leaves right totals is the exact one: a sum that wrapped is not
the sum, and a counter that wrapped is at nothing while the file reported is completed. -/
theorem fixed_fileDownloaded_agrees (hlt : m.downloadPhase.filesDownloaded < 2 ^ w)
    (hidle : (m.fileDownloaded f bytes now).IdleBytes)
    (h : Fixed.fileDownloaded build w m f bytes now = some m') (hagree : m'.DownloadsAgree) :
    m' = m.fileDownloaded f bytes now ∧ m'.downloadPhase.filesDownloaded < 2 ^ w ∧
      m'.downloadPhase.bytesDownloaded < 2 ^ 64 := by
  have htables := Fixed.sameTables_fileDownloaded h
  rw [fixed_fileDownloaded_eq] at h
  obtain ⟨files, hfiles, h⟩ := Option.bind_eq_some_iff.mp h
  obtain ⟨sum, hsum, h⟩ := Option.bind_eq_some_iff.mp h
  have hsumEq : sum = Table.sumBy FileDownloadStatus.bytesDownloaded
      (m.fileDownloaded f bytes now).downloadPhase.downloadsByFile := by
    have hbytes := hagree.bytes
    unfold completedBytes at hbytes
    rw [htables.downloads] at hbytes
    cases h
    exact hbytes.trans (completedBytes_eq hidle)
  have hsumLt : sum < 2 ^ 64 := total_mod hsum ▸ Nat.mod_lt _ (Nat.two_pow_pos 64)
  have hfilesEq : files = (m.fileDownloaded f bytes now).downloadPhase.filesDownloaded ∧
      files < 2 ^ w := by
    rw [filesDownloaded_eq]
    split at hfiles
    · next hdone =>
      cases hfiles
      exact ⟨(if_pos hdone).symm, hlt⟩
    · next hdone =>
      rw [if_neg hdone]
      rcases increment_eq hlt hfiles with ⟨rfl, hnext⟩ | hzero
      · exact ⟨rfl, hnext⟩
      · have hcompleted := completedDownloads_fileDownloaded m f bytes now
        have hcount := hagree.files
        unfold completedDownloads at hcount hcompleted
        have hfile : m'.downloadPhase.filesDownloaded = files := by
          cases h
          rfl
        rw [htables.downloads, hfile, hzero] at hcount
        rw [← hcount, Bool.eq_false_iff.mpr hdone, Bool.toNat_false] at hcompleted
        omega
  cases h
  exact ⟨by rw [hsumEq, hfilesEq.1]; rfl, hfilesEq.2, hsumLt⟩

end Machine

/-! ## Runs of the machine -/

section Runs
variable {build : Build} {w : Nat} {version : String} {now : DateTime} {ops : List Operation}

theorem unprocessed_applyAll (version : String) (now : DateTime) (hops : ∀ op ∈ ops, op.isDownload = true) :
    ((StateMarker.new version now).applyAll ops).Unprocessed := by
  induction ops using List.reverseRecOn with
  | nil => rfl
  | append_singleton ops op ih =>
    rw [applyAll_snoc]
    exact unprocessed_apply (hops op (by simp)) (ih fun op hop => hops op (by simp [hop]))

/-- The operation is no report, or a report of one file. -/
theorem Operation.reports_cases (op : Operation) :
    (∀ f, op.reports f = false) ∨ ∃ f bytes now, op = .fileDownloaded f bytes now := by
  cases op with
  | fileDownloaded f bytes now => exact .inr ⟨f, bytes, now, rfl⟩
  | _ => exact .inl fun _ => rfl

/-- What is left of a report's counter by the others. -/
theorem totals_apply {m : StateMarker} {op : Operation} (hop : op.isDownload = true)
    (hreport : ∀ f, op.reports f = false) (h : m.Unprocessed) {n k : Nat}
    (hfiles : m.downloadPhase.filesDownloaded < n) (hbytes : m.downloadPhase.bytesDownloaded < k) :
    (m.apply op).downloadPhase.filesDownloaded < n ∧
      (m.apply op).downloadPhase.bytesDownloaded < k := by
  cases op with
  | startDownload => exact ⟨Nat.zero_lt_of_lt hfiles, Nat.zero_lt_of_lt hbytes⟩
  | startFileDownload | completeDownload => exact ⟨hfiles, hbytes⟩
  | fileDownloaded f bytes now => simpa [Operation.reports] using hreport f
  | fileBytesVerified f checksum =>
    rw [apply, (fileBytesVerified_unprocessed .checked h checksum).2]
    exact ⟨hfiles, hbytes⟩
  | _ => cases hop

/-- When each report goes through with right totals, the machine runs as the exact operations do,
and its totals fit. -/
theorem exactRun_of_counts (hops : ∀ op ∈ ops, op.isDownload = true)
    (hcounts : CountsEachReport build w (.new version now) ops) (before after : List Operation)
    (heq : ops = before ++ after) :
    Fixed.applyAll build w (.new version now) before =
        some ((StateMarker.new version now).applyAll before) ∧
      ((StateMarker.new version now).applyAll before).downloadPhase.filesDownloaded < 2 ^ w ∧
      ((StateMarker.new version now).applyAll before).downloadPhase.bytesDownloaded < 2 ^ 64 := by
  induction before using List.reverseRecOn generalizing after with
  | nil => exact ⟨rfl, Nat.two_pow_pos w, Nat.two_pow_pos 64⟩
  | append_singleton before op ih =>
    obtain ⟨hrun, hfiles, hbytes⟩ := ih (op :: after) (by simp [heq])
    have hop := hops op (by simp [heq])
    have hunprocessed : ((StateMarker.new version now).applyAll before).Unprocessed :=
      unprocessed_applyAll version now fun op' hop' => hops op' (by simp [heq, hop'])
    rcases op.reports_cases with hreport | ⟨f, bytes, reported, rfl⟩
    · rw [Fixed.applyAll_snoc, hrun, applyAll_snoc]
      exact ⟨fixed_apply_eq hop hreport hunprocessed,
        totals_apply hop hreport hunprocessed hfiles hbytes⟩
    · obtain ⟨m', hreported, hagree⟩ := hcounts before f bytes reported after (by simp [heq])
      have hidle := idleBytes_new version now (before ++ [.fileDownloaded f bytes reported])
      rw [applyAll_snoc] at hidle ⊢
      rw [Fixed.applyAll_snoc, hrun] at hreported ⊢
      obtain ⟨rfl, hfit⟩ := fixed_fileDownloaded_agrees hfiles hidle hreported hagree
      exact ⟨hreported, hfit⟩

theorem exactRun_of_fits (build : Build) (hops : ∀ op ∈ ops, op.isDownload = true)
    (hagrees : AgreesAtReports (.new version now) ops) (hfits : ReportsFit w ops)
    (before after : List Operation) (heq : ops = before ++ after) :
    Fixed.applyAll build w (.new version now) before =
      some ((StateMarker.new version now).applyAll before) := by
  induction before using List.reverseRecOn generalizing after with
  | nil => rfl
  | append_singleton before op ih =>
    have hrun := ih (op :: after) (by simp [heq])
    rw [Fixed.applyAll_snoc, hrun, applyAll_snoc]
    rcases op.reports_cases with hreport | ⟨f, bytes, reported, rfl⟩
    · exact fixed_apply_eq (hops op (by simp [heq])) hreport
        (unprocessed_applyAll _ _ fun op' hop' => hops op' (by simp [heq, hop']))
    · have hsplit : ops = before ++ .fileDownloaded f bytes reported :: after := by simp [heq]
      obtain ⟨hbytes, hfiles⟩ := hfits before f bytes reported after hsplit
      obtain ⟨hfilesEq, hbytesEq⟩ := hagrees before f bytes reported after hsplit
      rw [← completedBytes_reported version now, applyAll_snoc] at hbytes
      rw [← completedDownloads_reported version now, applyAll_snoc] at hfiles
      exact fixed_fileDownloaded_of_fits (hfilesEq ▸ hfiles) (hbytesEq ▸ hbytes)

end Runs

end StateMarker

open StateMarker in
/-- From a new marker, the machine goes through with each report and leaves the totals of its table
exactly when no file is started again between its report and another one and what was reported
fits. -/
theorem downloads_counted_iff (build : Build) (w : Nat) (version : String) (now : DateTime)
    (ops : List Operation) (hops : ∀ op ∈ ops, op.isDownload = true) :
    CountsEachReport build w (.new version now) ops ↔ ¬ Restarted ops ∧ ReportsFit w ops := by
  constructor
  · intro hcounts
    have hexact := exactRun_of_counts hops hcounts
    have hagrees : AgreesAtReports (.new version now) ops := by
      intro before f bytes reported after heq
      obtain ⟨m', hrun, hagree⟩ := hcounts before f bytes reported after heq
      have hexactRun := (hexact (before ++ [.fileDownloaded f bytes reported]) after
        (by simp [heq])).1
      rw [applyAll_snoc] at hexactRun
      cases hexactRun.symm.trans hrun
      exact hagree
    refine ⟨(agreesAtReports_iff version now ops).mp hagrees, ?_⟩
    intro before f bytes reported after heq
    have hagree := hagrees before f bytes reported after heq
    obtain ⟨-, hfiles, hbytes⟩ :=
      hexact (before ++ [.fileDownloaded f bytes reported]) after (by simp [heq])
    rw [← completedBytes_reported version now, ← completedDownloads_reported version now,
      applyAll_snoc]
    rw [applyAll_snoc] at hfiles hbytes
    exact ⟨hagree.bytes ▸ hbytes, hagree.files ▸ hfiles⟩
  · rintro ⟨hrestarted, hfits⟩
    have hagrees := (agreesAtReports_iff version now ops).mpr hrestarted
    intro before f bytes reported after heq
    have hrun := exactRun_of_fits build hops hagrees hfits
      (before ++ [.fileDownloaded f bytes reported]) after (by simp [heq])
    refine ⟨_, hrun, ?_⟩
    rw [applyAll_snoc]
    exact hagrees before f bytes reported after heq

/-! ## A file downloaded twice -/

/-- A file is downloaded, its download is started again and reported again. -/
def downloadedTwice : List StateMarker.Operation := [
  .startDownload 1 0,
  .startFileDownload "artist.jsonl.xz" 1,
  .fileDownloaded "artist.jsonl.xz" 100 2,
  .startFileDownload "artist.jsonl.xz" 3,
  .fileDownloaded "artist.jsonl.xz" 100 4]

theorem filesDownloaded_downloadedTwice (build : Build) : ∃ m,
    StateMarker.Fixed.applyAll build 64 (.new "20260101-000000" 0) downloadedTwice = some m ∧
      m.downloadPhase.filesDownloaded = 2 ∧ m.completedDownloads = 1 := by
  cases build <;> exact ⟨_, rfl, by decide +kernel, by decide +kernel⟩

/-- Two files are counted, and there is one. -/
theorem download_counted_twice :
    (∀ build, ¬ StateMarker.CountsEachReport build 64 (.new "20260101-000000" 0) downloadedTwice) ∧
    ∀ build, ∃ m,
      StateMarker.Fixed.applyAll build 64 (.new "20260101-000000" 0) downloadedTwice = some m ∧
        m.downloadPhase.filesDownloaded = 2 ∧ m.completedDownloads = 1 := by
  refine ⟨fun build h => ?_, filesDownloaded_downloadedTwice⟩
  obtain ⟨m, hrun, hfiles, hcompleted⟩ := filesDownloaded_downloadedTwice build
  obtain ⟨m', hreport, hagree⟩ := h (downloadedTwice.take 4) "artist.jsonl.xz" 100 4 [] rfl
  cases hrun.symm.trans hreport
  have hcount := hagree.files
  rw [hfiles, hcompleted] at hcount
  cases hcount

/-- A file downloaded once. -/
theorem downloads_counted_once :
    let ops : List StateMarker.Operation := [.startDownload 1 0,
      .startFileDownload "artist.jsonl.xz" 1, .fileDownloaded "artist.jsonl.xz" 100 2]
    (∀ op ∈ ops, op.isDownload = true) ∧
    (StateMarker.CountsEachReport .checked 64 (.new "20260101-000000" 0) ops ↔
      ¬ StateMarker.Restarted ops ∧ StateMarker.ReportsFit 64 ops) :=
  ⟨by decide, downloads_counted_iff .checked 64 _ _ _ (by decide)⟩

end MusicbrainzIngestion
