import MusicbrainzIngestion.Downloader
import MusicbrainzIngestion.Service

/-! The service over the directory that its downloader fills. Where `Service` takes the
download of a version as one step, here the downloader takes all of its own, and the process
may be killed, or the power lost, at any of them. -/

namespace MusicbrainzIngestion
open Base

structure Installation where
  service : Service
  downloader : Downloader

namespace Installation

inductive Label where
  | service (l : Service.Label)
  | download (l : Downloader.Label)
  | downloaded
  | kill
  | powerLoss (dirKept : Bool) (kept : List (Update String)) (garbled : Nat → List UInt8)

/-- The directory changes by the downloader alone, and a kill takes both. -/
def ownStep : Service.Label → Bool
  | .download _ _ | .removeFile _ | .crash => false
  | _ => true

/-- Does the downloader take the step by itself? It is called again only after its result was
taken. -/
def runs (d : Downloader) : Downloader.Label → Bool
  | .kill | .powerLoss _ _ _ => false
  | .begin => d.outcome.isNone
  | _ => true

variable (env : DownloadExternals) (cfg : ServiceConfig)

/-- The dump files as the directory holds them. -/
def files (d : Downloader) : Files := fun path =>
  (DataType.musicbrainz.find? fun dt => cfg.dump.path dt = path).bind fun dt =>
    (d.volume.visible (cfg.dump.fileName dt)).map d.volume.data

/-- The service finds the directory as the downloader leaves it. -/
def withDirectory (s : Service) (d : Downloader) : Installation where
  service := { s with files := files cfg d }
  downloader := d

def download (c : Installation) (l : Downloader.Label) : Option Installation :=
  match c.service.phase with
  | .downloading =>
    if runs c.downloader l then
      (Downloader.step env c.downloader l).map (withDirectory cfg c.service)
    else none
  | _ => none

/-- `download_latest` has returned. -/
def downloaded (c : Installation) : Option Installation :=
  match c.service.phase, c.downloader.phase, c.downloader.outcome with
  | .downloading, .idle, some (.error e) =>
    some ⟨c.service.finish (.error e), { c.downloader with outcome := none }⟩
  | .downloading, .idle, some (.ok _) =>
    some ⟨c.service.goto .downloaded, { c.downloader with outcome := none }⟩
  | _, _, _ => none

def step (c : Installation) : Label → Option Installation
  | .service l =>
    if ownStep l then (Service.step cfg c.service l).map fun s => { c with service := s } else none
  | .download l => c.download env cfg l
  | .downloaded => c.downloaded
  | .kill => some ⟨c.service.crash, c.downloader.kill⟩
  | .powerLoss dirKept kept garbled =>
    (Downloader.step env c.downloader (.powerLoss dirKept kept garbled)).map
      (withDirectory cfg c.service.crash)

/-- The directory holds none of the dump files yet. -/
def machine : Machine Installation Label where
  init c := (Downloader.machine env).init c.downloader ∧
    (∀ dt, c.downloader.volume.durable (bareName dt) = none) ∧
    ∃ now, c.service = Service.initial cfg (files cfg c.downloader) now
  step := step env cfg

end Installation

end MusicbrainzIngestion
