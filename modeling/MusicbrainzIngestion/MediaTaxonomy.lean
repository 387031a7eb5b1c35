import MusicbrainzIngestion.Media

/-! The vendored media vocabulary, the sections the producer reads: families with
their resolve rules, media with their defaults, and the MusicBrainz tables. -/

namespace MusicbrainzIngestion.Media
open Base.Json

def mediumOf (id family : String) (defaults : Entries) : MediumDefinition :=
  { id, family, defaults }

def wholeNumber (n : UInt64) : Value := .number (.posInt n)

def vendoredFamilies : List FamilyDefinition := [
  { id := "vinyl", resolve := some { attr := "size_inches", map := [("7", "vinyl_7"), ("10", "vinyl_10"), ("12", "vinyl_12")] } },
  { id := "shellac", resolve := some { attr := "size_inches", map := [("7", "shellac_7"), ("10", "shellac_10"), ("12", "shellac_12")] } },
  { id := "grooved_other", resolve := none },
  { id := "tape", resolve := none },
  { id := "optical", resolve := none },
  { id := "digital", resolve := none },
  { id := "video", resolve := none },
  { id := "other", resolve := none }]

def vendoredMedia : List MediumDefinition := [
  mediumOf "vinyl_7" "vinyl" [("size_inches", wholeNumber 7)],
  mediumOf "vinyl_10" "vinyl" [("size_inches", wholeNumber 10)],
  mediumOf "vinyl_12" "vinyl" [("size_inches", wholeNumber 12)],
  mediumOf "vinyl_unspecified" "vinyl" [],
  mediumOf "shellac_7" "shellac" [("size_inches", wholeNumber 7), ("speed_rpm", wholeNumber 78)],
  mediumOf "shellac_10" "shellac" [("size_inches", wholeNumber 10), ("speed_rpm", wholeNumber 78)],
  mediumOf "shellac_12" "shellac" [("size_inches", wholeNumber 12), ("speed_rpm", wholeNumber 78)],
  mediumOf "shellac_unspecified" "shellac" [("speed_rpm", wholeNumber 78)],
  mediumOf "grooved_acetate" "grooved_other" [],
  mediumOf "grooved_lathe_cut" "grooved_other" [],
  mediumOf "grooved_flexi_disc" "grooved_other" [],
  mediumOf "grooved_cylinder" "grooved_other" [],
  mediumOf "grooved_edison_disc" "grooved_other" [],
  mediumOf "grooved_pathe_disc" "grooved_other" [],
  mediumOf "grooved_piano_roll" "grooved_other" [],
  mediumOf "grooved_other_unspecified" "grooved_other" [],
  mediumOf "tape_cassette" "tape" [],
  mediumOf "tape_microcassette" "tape" [],
  mediumOf "tape_reel_to_reel" "tape" [],
  mediumOf "tape_8_track" "tape" [],
  mediumOf "tape_4_track" "tape" [],
  mediumOf "tape_playtape" "tape" [],
  mediumOf "tape_dat" "tape" [],
  mediumOf "tape_dcc" "tape" [],
  mediumOf "tape_elcaset" "tape" [],
  mediumOf "tape_unspecified" "tape" [],
  mediumOf "optical_cd" "optical" [],
  mediumOf "optical_cdr" "optical" [],
  mediumOf "optical_sacd" "optical" [],
  mediumOf "optical_dvd_audio" "optical" [],
  mediumOf "optical_minidisc" "optical" [],
  mediumOf "optical_dualdisc" "optical" [],
  mediumOf "optical_umd" "optical" [],
  mediumOf "optical_unspecified" "optical" [],
  mediumOf "digital_file" "digital" [],
  mediumOf "digital_usb" "digital" [],
  mediumOf "digital_memory_card" "digital" [],
  mediumOf "digital_download_card" "digital" [],
  mediumOf "digital_floppy_disk" "digital" [],
  mediumOf "digital_unspecified" "digital" [],
  mediumOf "video_dvd" "video" [],
  mediumOf "video_dvdr" "video" [],
  mediumOf "video_blu_ray" "video" [],
  mediumOf "video_hd_dvd" "video" [],
  mediumOf "video_laserdisc" "video" [],
  mediumOf "video_cdv" "video" [],
  mediumOf "video_vcd" "video" [],
  mediumOf "video_svcd" "video" [],
  mediumOf "video_vhs" "video" [],
  mediumOf "video_betamax" "video" [],
  mediumOf "video_vhd" "video" [],
  mediumOf "video_ced" "video" [],
  mediumOf "video_film_reel" "video" [],
  mediumOf "video_unspecified" "video" [],
  mediumOf "other_unspecified" "other" []]

def vendoredFormats : List (String × FormatEntry) := [
  ("10\" Shellac", { medium := some "shellac_10" }),
  ("10\" Vinyl", { medium := some "vinyl_10" }),
  ("12\" LaserDisc", { medium := some "video_laserdisc" }),
  ("12\" Shellac", { medium := some "shellac_12" }),
  ("12\" Vinyl", { medium := some "vinyl_12" }),
  ("3.5\" Floppy Disk", { medium := some "digital_floppy_disk" }),
  ("4-Track Cartridge", { medium := some "tape_4_track" }),
  ("5.25\" Floppy Disk", { medium := some "digital_floppy_disk" }),
  ("7\" Flexi-disc", { medium := some "grooved_flexi_disc" }),
  ("7\" Shellac", { medium := some "shellac_7" }),
  ("7\" Vinyl", { medium := some "vinyl_7" }),
  ("8\" LaserDisc", { medium := some "video_laserdisc" }),
  ("8\" Vinyl", { family := some "vinyl" }),
  ("8-Track Cartridge", { medium := some "tape_8_track" }),
  ("8cm CD", { medium := some "optical_cd", variant := some "mini" }),
  ("8cm CD+G", { medium := some "optical_cd", variant := some "cd_g" }),
  ("8cm DVD", { medium := some "video_dvd", variant := some "mini" }),
  ("Acetate", { medium := some "grooved_acetate" }),
  ("Betamax", { medium := some "video_betamax" }),
  ("Blu-ray", { medium := some "video_blu_ray" }),
  ("Blu-ray-R", { medium := some "video_blu_ray" }),
  ("Blu-spec CD", { medium := some "optical_cd", variant := some "blu_spec_cd" }),
  ("CD", { medium := some "optical_cd" }),
  ("CD+G", { medium := some "optical_cd", variant := some "cd_g" }),
  ("CD-R", { medium := some "optical_cdr" }),
  ("CDV", { medium := some "video_cdv" }),
  ("CED", { medium := some "video_ced" }),
  ("Cartridge", { medium := some "tape_8_track" }),
  ("Cassette", { medium := some "tape_cassette" }),
  ("Copy Control CD", { medium := some "optical_cd", variant := some "copy_control" }),
  ("DAT", { medium := some "tape_dat" }),
  ("DCC", { medium := some "tape_dcc" }),
  ("DTS CD", { medium := some "optical_cd", variant := some "dts" }),
  ("DVD", { medium := some "video_dvd" }),
  ("DVD-Audio", { medium := some "optical_dvd_audio" }),
  ("DVD-R", { medium := some "video_dvdr" }),
  ("DVD-Video", { medium := some "video_dvd" }),
  ("DVDplus", { medium := some "optical_dualdisc" }),
  ("DVDplus (CD side)", { medium := some "optical_dualdisc" }),
  ("DVDplus (DVD-Audio side)", { medium := some "optical_dualdisc" }),
  ("DVDplus (DVD-Video side)", { medium := some "optical_dualdisc" }),
  ("Data CD", { medium := some "optical_cd", variant := some "data" }),
  ("Digital Media", { medium := some "digital_file" }),
  ("Download Card", { medium := some "digital_download_card" }),
  ("DualDisc", { medium := some "optical_dualdisc" }),
  ("DualDisc (CD side)", { medium := some "optical_dualdisc" }),
  ("DualDisc (DVD-Audio side)", { medium := some "optical_dualdisc" }),
  ("DualDisc (DVD-Video side)", { medium := some "optical_dualdisc" }),
  ("Edison Diamond Disc", { medium := some "grooved_edison_disc" }),
  ("Elcaset", { medium := some "tape_elcaset" }),
  ("Enhanced CD", { medium := some "optical_cd", variant := some "enhanced" }),
  ("Flexi-disc", { medium := some "grooved_flexi_disc" }),
  ("Floppy Disk", { medium := some "digital_floppy_disk" }),
  ("HD-DVD", { medium := some "video_hd_dvd" }),
  ("HDCD", { medium := some "optical_cd", variant := some "hdcd" }),
  ("HQCD", { medium := some "optical_cd", variant := some "hqcd" }),
  ("Hybrid SACD", { medium := some "optical_sacd", variant := some "hybrid_layer" }),
  ("Hybrid SACD (CD layer)", { medium := some "optical_sacd", variant := some "hybrid_layer" }),
  ("Hybrid SACD (SACD layer)", { medium := some "optical_sacd", variant := some "hybrid_layer" }),
  ("Hybrid SACD (SACD layer, 2 channels)", { medium := some "optical_sacd", variant := some "hybrid_layer" }),
  ("Hybrid SACD (SACD layer, multichannel)", { medium := some "optical_sacd", variant := some "hybrid_layer" }),
  ("KiT Album", { medium := some "digital_unspecified" }),
  ("Laserdisc", { medium := some "video_laserdisc" }),
  ("Memory Stick", { medium := some "digital_memory_card" }),
  ("Microcassette", { medium := some "tape_microcassette" }),
  ("MiniDisc", { medium := some "optical_minidisc" }),
  ("Minimax CD", { medium := some "optical_cd", variant := some "minimax" }),
  ("Mixed Mode CD", { medium := some "optical_cd", variant := some "mixed_mode" }),
  ("Music Card", { medium := some "digital_memory_card" }),
  ("Other", { medium := some "other_unspecified" }),
  ("Pathé Disc", { medium := some "grooved_pathe_disc" }),
  ("Phonograph Record", { family := some "grooved_other" }),
  ("Piano Roll", { medium := some "grooved_piano_roll" }),
  ("PlayTape", { medium := some "tape_playtape" }),
  ("Playbutton", { medium := some "digital_unspecified" }),
  ("Reel-to-reel", { medium := some "tape_reel_to_reel" }),
  ("SACD", { medium := some "optical_sacd" }),
  ("SACD (2 channels)", { medium := some "optical_sacd" }),
  ("SACD (multichannel)", { medium := some "optical_sacd" }),
  ("SD Card", { medium := some "digital_memory_card" }),
  ("SHM-CD", { medium := some "optical_cd", variant := some "shm_cd" }),
  ("SHM-SACD", { medium := some "optical_sacd", variant := some "shm_sacd" }),
  ("SVCD", { medium := some "video_svcd" }),
  ("Shellac", { family := some "shellac" }),
  ("Tefifon", { medium := some "tape_unspecified" }),
  ("UMD", { medium := some "optical_umd" }),
  ("USB Flash Drive", { medium := some "digital_usb" }),
  ("VCD", { medium := some "video_vcd" }),
  ("VHD", { medium := some "video_vhd" }),
  ("VHS", { medium := some "video_vhs" }),
  ("Video 2000", { medium := some "video_unspecified" }),
  ("Vinyl", { family := some "vinyl" }),
  ("VinylDisc", { medium := some "optical_dualdisc" }),
  ("VinylDisc (CD side)", { medium := some "optical_dualdisc" }),
  ("VinylDisc (DVD side)", { medium := some "optical_dualdisc" }),
  ("VinylDisc (Vinyl side)", { medium := some "optical_dualdisc" }),
  ("Wax Cylinder", { medium := some "grooved_cylinder" }),
  ("Zip Disk", { medium := some "digital_floppy_disk" }),
  ("slotMusic", { medium := some "digital_memory_card" })]

def vendoredStatus : List (String × Option String) := [
  ("Bootleg", some "unofficial"),
  ("Cancelled", some "cancelled"),
  ("Expunged", some "expunged"),
  ("Official", none),
  ("Promotion", some "promo"),
  ("Pseudo-Release", some "pseudo_release"),
  ("Withdrawn", some "withdrawn")]

def vendoredPackaging : List (String × String) := [
  ("Book", "book"),
  ("Box", "box"),
  ("Cardboard/Paper Sleeve", "cardboard_sleeve"),
  ("Cassette Case", "cassette_case"),
  ("Clamshell Case", "clamshell_case"),
  ("Digibook", "digibook"),
  ("Digifile", "digifile"),
  ("Digipak", "digipak"),
  ("Discbox Slider", "discbox_slider"),
  ("Fatbox", "fatbox"),
  ("Gatefold Cover", "gatefold"),
  ("Jewel Case", "jewel_case"),
  ("Keep Case", "keep_case"),
  ("Longbox", "longbox"),
  ("Metal Tin", "metal_tin"),
  ("None", "none"),
  ("Other", "other"),
  ("Plastic Sleeve", "plastic_sleeve"),
  ("Slidepack", "slidepack"),
  ("Slim Jewel Case", "slim_jewel_case"),
  ("Slipcase", "slipcase"),
  ("Snap Case", "snap_case"),
  ("SnapPack", "snappack"),
  ("Super Jewel Box", "super_jewel_box")]

def vendoredPrimaryTypes : List (String × String) := [
  ("Album", "album"),
  ("Broadcast", "broadcast"),
  ("EP", "ep"),
  ("Other", "other"),
  ("Single", "single")]

def vendoredSecondaryTypes : List (String × String) := [
  ("Audio drama", "audio_drama"),
  ("Audiobook", "audiobook"),
  ("Compilation", "compilation"),
  ("DJ-mix", "dj_mix"),
  ("Demo", "demo"),
  ("Field recording", "field_recording"),
  ("Interview", "interview"),
  ("Live", "live"),
  ("Mixtape/Street", "mixtape"),
  ("Remix", "remix"),
  ("Soundtrack", "soundtrack"),
  ("Spokenword", "spokenword")]

/-- The document compiled into the producer. -/
def taxonomyJson : TaxonomyDocument where
  taxonomyVersion := "1"
  families := vendoredFamilies
  media := vendoredMedia
  musicbrainz := {
    formats := vendoredFormats
    status := vendoredStatus
    packaging := vendoredPackaging
    primaryTypes := vendoredPrimaryTypes
    secondaryTypes := vendoredSecondaryTypes }

def taxonomy : Taxonomy := .ofDocument taxonomyJson

end MusicbrainzIngestion.Media
