import MusicbrainzIngestion.Downloader

/-! What a step of the downloader can do, one constructor for each way it can go. -/

namespace MusicbrainzIngestion
open Base

namespace Downloader

inductive Move (env : DownloadExternals) (d : Downloader) : Label → Downloader → Prop where
  | begins (hp : d.phase = .idle) :
    Move env d .begin { d with phase := .indexing, outcome := none }
  | indexFails {e : Error} (hp : d.phase = .indexing) :
    Move env d (.index (some e)) (d.finished (.error e))
  | indexed (hp : d.phase = .indexing) : Move env d (.index none) (d.goto .checking)
  | current (hp : d.phase = .checking) (hc : isVersionComplete d.isDir d.present = true) :
    Move env d .check (d.finished (.ok .alreadyCurrent))
  | outdated (hp : d.phase = .checking) : Move env d .check (d.goto .summing)
  | sumsFail {e : Error} (hp : d.phase = .summing) :
    Move env d (.sums (.error e)) (d.finished (.error e))
  | summed {sums : String} (hp : d.phase = .summing) :
    Move env d (.sums (.ok sums)) (d.goto (.makingDir sums))
  | makeDirFails {sums : String} {e : Error} (hp : d.phase = .makingDir sums) :
    Move env d (.makeDir (some e)) (d.finished (.error e))
  | makesDir {sums : String} (hp : d.phase = .makingDir sums) :
    Move env d (.makeDir none) ({ d with isDir := true }.goto (.entities sums mbEntities))
  | downloaded {sums : String} (hp : d.phase = .entities sums []) :
    Move env d .nextEntity (d.finished (.ok .downloaded))
  | skips {sums : String} {dt : DataType} {rest : List DataType}
    (hp : d.phase = .entities sums (dt :: rest)) (hc : entityIsComplete d.present dt = true) :
    Move env d .nextEntity (d.goto (.entities sums rest))
  | noChecksum {sums : String} {dt : DataType} {rest : List DataType} {e : Error}
    (hp : d.phase = .entities sums (dt :: rest)) : Move env d .nextEntity (d.finished (.error e))
  | acquires {sums : String} {dt : DataType} {rest : List DataType} {expected : String}
    (hp : d.phase = .entities sums (dt :: rest)) (hc : entityIsComplete d.present dt = false)
    (he : (parseSha256sums sums).lookup (tarballName dt) = some expected) :
    Move env d .nextEntity (d.goto (.acquiring sums ⟨dt, rest, expected, 1⟩ .requesting))
  | prepares {sums : String} {job : Acquisition} {removed : Bool}
    (hp : d.phase = .acquiring sums job .preparing) :
    Move env d (.prepare removed) ((d.removeTmp job removed).goto (.acquiring sums job .requesting))
  | requestFails {sums : String} {job : Acquisition} {e : Error}
    (hp : d.phase = .acquiring sums job .requesting) :
    Move env d (.request (.error e)) (d.retry sums job e)
  | unreadable {sums : String} {job : Acquisition} {response : Text.Stream} {e : Error}
    (hp : d.phase = .acquiring sums job .requesting) :
    Move env d (.request (.ok response)) (d.goto (.acquiring sums job (.cleaning e)))
  | responds {sums : String} {job : Acquisition} {response : Text.Stream}
    {entries : List (Except Error TarEntry)} (hp : d.phase = .acquiring sums job .requesting)
    (he : env.entries response = .ok entries) :
    Move env d (.request (.ok response)) (d.goto (.acquiring sums job (.scanning response entries)))
  | scans {sums : String} {job : Acquisition} {response : Text.Stream}
    {entries : List (Except Error TarEntry)}
    (hp : d.phase = .acquiring sums job (.scanning response entries)) :
    Move env d .scan (d.goto (.acquiring sums job (scanned job.entity response entries)))
  | createFails {sums : String} {job : Acquisition} {response : Text.Stream}
    {chunks : List (Except Error (List UInt8))} {encoder : Bool} {e : Error}
    (hp : d.phase = .acquiring sums job (.creating response chunks)) :
    Move env d (.create false encoder) (d.goto (.acquiring sums job (.cleaning e)))
  | encoderFails {sums : String} {job : Acquisition} {response : Text.Stream}
    {chunks : List (Except Error (List UInt8))} {e : Error}
    (hp : d.phase = .acquiring sums job (.creating response chunks)) :
    Move env d (.create true false) ({ d with volume := d.volume.create (tmpName job) [] }.goto
      (.acquiring sums job (.cleaning e)))
  | creates {sums : String} {job : Acquisition} {response : Text.Stream}
    {chunks : List (Except Error (List UInt8))}
    (hp : d.phase = .acquiring sums job (.creating response chunks)) :
    Move env d (.create true true) ({ d with volume := d.volume.create (tmpName job) [] }.goto
      (.acquiring sums job (.copying response (d.volume.opened (tmpName job)) chunks [])))
  | readFails {sums : String} {job : Acquisition} {response : Text.Stream} {inode : Nat}
    {chunks : List (Except Error (List UInt8))} {content written : List UInt8} {fault : Bool}
    {e : Error} (hp : d.phase = .acquiring sums job (.copying response inode chunks content)) :
    Move env d (.copy written fault) (d.goto (.acquiring sums job (.discarding e)))
  | readsEnd {sums : String} {job : Acquisition} {response : Text.Stream} {inode : Nat}
    {chunks : List (Except Error (List UInt8))} {content written : List UInt8} {fault : Bool}
    (hp : d.phase = .acquiring sums job (.copying response inode chunks content))
    (hc : readAll chunks = some []) :
    Move env d (.copy written fault) (d.goto (.acquiring sums job (.finishing response inode content)))
  | writeFails {sums : String} {job : Acquisition} {response : Text.Stream} {inode : Nat}
    {chunks : List (Except Error (List UInt8))} {content written : List UInt8} {e : Error}
    (hp : d.phase = .acquiring sums job (.copying response inode chunks content)) :
    Move env d (.copy written true) ({ d with volume := d.volume.write inode written }.goto
      (.acquiring sums job (.discarding e)))
  | writes {sums : String} {job : Acquisition} {response : Text.Stream} {inode : Nat}
    {chunk : List UInt8} {rest : List (Except Error (List UInt8))} {content written : List UInt8}
    (hp : d.phase = .acquiring sums job (.copying response inode (.ok chunk :: rest) content))
    (hc : chunk ≠ []) :
    Move env d (.copy written false) ({ d with volume := d.volume.write inode written }.goto
      (.acquiring sums job (.copying response inode rest (content ++ chunk))))
  | finishFails {sums : String} {job : Acquisition} {response : Text.Stream} {inode : Nat}
    {content data : List UInt8} {e : Error}
    (hp : d.phase = .acquiring sums job (.finishing response inode content)) :
    Move env d (.finish (some data)) ({ d with volume := d.volume.write inode data }.goto
      (.acquiring sums job (.discarding e)))
  | finishes {sums : String} {job : Acquisition} {response : Text.Stream} {inode : Nat}
    {content : List UInt8} (hp : d.phase = .acquiring sums job (.finishing response inode content)) :
    Move env d (.finish none) ({ d with volume := d.volume.write inode (env.xzEncode content) }.goto
      (.acquiring sums job (.syncing response inode)))
  | syncFails {sums : String} {job : Acquisition} {response : Text.Stream} {inode : Nat} {e : Error}
    (hp : d.phase = .acquiring sums job (.syncing response inode)) :
    Move env d (.sync true) (d.goto (.acquiring sums job (.discarding e)))
  | syncs {sums : String} {job : Acquisition} {response : Text.Stream} {inode : Nat}
    (hp : d.phase = .acquiring sums job (.syncing response inode)) :
    Move env d (.sync false) ({ d with volume := d.volume.fsync inode }.goto
      (.acquiring sums job (.draining response inode)))
  | drainFails {sums : String} {job : Acquisition} {response : Text.Stream} {inode : Nat} {e : Error}
    (hp : d.phase = .acquiring sums job (.draining response inode)) :
    Move env d .drain (d.goto (.acquiring sums job (.cleaning e)))
  | mismatches {sums : String} {job : Acquisition} {response : Text.Stream} {inode : Nat} {e : Error}
    (hp : d.phase = .acquiring sums job (.draining response inode))
    (hh : env.sha256Hex response.bytes ≠ job.expected) :
    Move env d .drain (d.goto (.acquiring sums job (.discarding e)))
  | verifies {sums : String} {job : Acquisition} {response : Text.Stream} {inode : Nat}
    (hp : d.phase = .acquiring sums job (.draining response inode)) (hf : response.failure = none)
    (hh : env.sha256Hex response.bytes = job.expected) :
    Move env d .drain ({ d with
      verified := d.verified ++ [(⟨job.entity, sums, response, d.volume.data inode⟩ : Verified)] }.goto
        (.acquiring sums job (.renaming inode)))
  | renameFails {sums : String} {job : Acquisition} {inode : Nat} {e : Error}
    (hp : d.phase = .acquiring sums job (.renaming inode)) :
    Move env d (.rename true) (d.goto (.acquiring sums job (.cleaning e)))
  | renames {sums : String} {job : Acquisition} {inode : Nat}
    (hp : d.phase = .acquiring sums job (.renaming inode)) :
    Move env d (.rename false)
      ({ d with volume := d.volume.rename (tmpName job) (outName job.entity) }.goto
        (.acquiring sums job .syncingDir))
  | leavesDir {sums : String} {job : Acquisition} (hp : d.phase = .acquiring sums job .syncingDir) :
    Move env d (.syncDir false) (d.goto (.entities sums job.rest))
  | syncsDir {sums : String} {job : Acquisition} (hp : d.phase = .acquiring sums job .syncingDir) :
    Move env d (.syncDir true)
      ({ d with volume := d.volume.fsyncDir }.goto (.entities sums job.rest))
  | discards {sums : String} {job : Acquisition} {e : Error} {removed : Bool}
    (hp : d.phase = .acquiring sums job (.discarding e)) :
    Move env d (.discard removed)
      ((d.removeTmp job removed).goto (.acquiring sums job (.cleaning e)))
  | cleans {sums : String} {job : Acquisition} {e : Error} {removed : Bool}
    (hp : d.phase = .acquiring sums job (.cleaning e)) :
    Move env d (.clean removed) ((d.removeTmp job removed).retry sums job e)
  | panics {sums : String} {job : Acquisition} {stage : Stage} {e : Error}
    (hp : d.phase = .acquiring sums job stage) : Move env d .panic (d.finished (.error e))
  | killed : Move env d .kill d.kill
  | losesPower {kept : List (Update String)} (garbled : Nat → List UInt8)
    (hk : kept.Sublist d.volume.pending) :
    Move env d (.powerLoss true kept garbled)
      { d.kill with volume := d.volume.powerLoss kept garbled }
  | losesDir {kept : List (Update String)} {garbled : Nat → List UInt8} :
    Move env d (.powerLoss false kept garbled)
      { d.kill with isDir := false, volume := (d.volume.powerLoss kept garbled).emptied }

variable {env : DownloadExternals} {d t : Downloader}

theorem nextEntity_move (h : d.nextEntity = some t) : Move env d .nextEntity t := by
  unfold nextEntity at h
  split at h
  · next hp =>
    cases h
    exact .downloaded hp
  · next hp =>
    split at h
    · next hc =>
      cases h
      exact .skips hp hc
    · next hc =>
      split at h <;> cases h
      · exact .noChecksum hp
      · next he => exact .acquires hp (Bool.eq_false_iff.mpr hc) he
  · cases h

theorem request_move {reply : Except Error Text.Stream} (h : d.request env reply = some t) :
    Move env d (.request reply) t := by
  unfold request at h
  split at h
  · next hp =>
    split at h
    · cases h
      exact .requestFails hp
    · split at h <;> cases h
      · exact .unreadable hp
      · next he => exact .responds hp he
  · cases h

theorem create_move {created encoder : Bool} (h : d.create created encoder = some t) :
    Move env d (.create created encoder) t := by
  unfold create at h
  split at h
  · next hp =>
    cases created with
    | false =>
      cases h
      exact .createFails hp
    | true =>
      cases encoder <;> cases h
      · exact .encoderFails hp
      · exact .creates hp
  · cases h

theorem copy_move {written : List UInt8} {fault : Bool} (h : d.copy written fault = some t) :
    Move env d (.copy written fault) t := by
  unfold copy at h
  split at h
  · next hp =>
    split at h
    · cases h
      exact .readsEnd hp rfl
    · cases h
      exact .readFails hp
    · next chunk rest =>
      split at h
      · next hempty =>
        cases h
        exact .readsEnd hp (by rw [readAll, if_pos hempty])
      · next hne =>
        cases fault <;> cases h
        · exact .writes hp hne
        · exact .writeFails hp
  · cases h

theorem drain_move (h : d.drain env = some t) : Move env d .drain t := by
  unfold drain at h
  split at h
  · next hp =>
    split at h
    · cases h
      exact .drainFails hp
    · next hf =>
      dsimp only at h
      split at h <;> cases h
      · next hh => exact .mismatches hp hh
      · next hh => exact .verifies hp hf (not_not.mp hh)
  · cases h

theorem powerLoss_move {dirKept : Bool} {kept : List (Update String)} {garbled : Nat → List UInt8}
    (h : step env d (.powerLoss dirKept kept garbled) = some t) :
    Move env d (.powerLoss dirKept kept garbled) t := by
  simp only [step] at h
  split at h
  · next hk =>
    cases dirKept <;> cases h
    · rw [Bool.and_false]
      exact .losesDir
    · rw [Bool.and_true]
      exact .losesPower garbled hk
  · cases h

theorem step_move {label : Label} (h : step env d label = some t) : Move env d label t := by
  cases label with
  | nextEntity => exact nextEntity_move h
  | request reply => exact request_move h
  | create created encoder => exact create_move h
  | copy written fault => exact copy_move h
  | drain => exact drain_move h
  | powerLoss dirKept kept garbled => exact powerLoss_move h
  | kill =>
    cases h
    exact .killed
  | begin =>
    simp only [step, Downloader.begin] at h
    split at h <;> cases h
    next hp => exact .begins hp
  | index fault =>
    simp only [step, index] at h
    split at h
    · next hp =>
      split at h <;> cases h
      · exact .indexFails hp
      · exact .indexed hp
    · cases h
  | check =>
    simp only [step, check] at h
    split at h
    · next hp =>
      split at h <;> cases h
      · next hc => exact .current hp hc
      · exact .outdated hp
    · cases h
  | sums reply =>
    simp only [step, fetchSums] at h
    split at h
    · next hp =>
      split at h <;> cases h
      · exact .sumsFail hp
      · exact .summed hp
    · cases h
  | makeDir fault =>
    simp only [step, makeDir] at h
    split at h
    · next hp =>
      split at h <;> cases h
      · exact .makeDirFails hp
      · exact .makesDir hp
    · cases h
  | prepare removed =>
    simp only [step, prepare] at h
    split at h <;> cases h
    next hp => exact .prepares hp
  | scan =>
    simp only [step, scan] at h
    split at h <;> cases h
    next hp => exact .scans hp
  | finish garbage =>
    simp only [step, finish] at h
    split at h
    · next hp =>
      split at h <;> cases h
      · exact .finishFails hp
      · exact .finishes hp
    · cases h
  | sync fault =>
    simp only [step, sync] at h
    split at h
    · next hp =>
      cases fault <;> cases h
      · exact .syncs hp
      · exact .syncFails hp
    · cases h
  | rename fault =>
    simp only [step, Downloader.rename] at h
    split at h
    · next hp =>
      cases fault <;> cases h
      · exact .renames hp
      · exact .renameFails hp
    · cases h
  | syncDir synced =>
    simp only [step, syncDir] at h
    split at h
    · next hp =>
      cases synced <;> cases h
      · exact .leavesDir hp
      · exact .syncsDir hp
    · cases h
  | discard removed =>
    simp only [step, discard] at h
    split at h <;> cases h
    next hp => exact .discards hp
  | clean removed =>
    simp only [step, clean] at h
    split at h <;> cases h
    next hp => exact .cleans hp
  | panic =>
    simp only [step, panicked] at h
    split at h
    · next hp =>
      split at h <;> cases h
      exact .panics hp
    · cases h

end Downloader

end MusicbrainzIngestion
