/-
From the address of a manifest to the media playlist that is played. A
master playlist is followed to its best variant, but only once.
-/
import VideoWall.Playlist.Parser
import VideoWall.Recorder.Client

namespace VideoWall.Playback

open Recorder

/-- Why a manifest leads to no media playlist. -/
inductive ManifestError where
  | manifest (cause : Failure)
  | variant (cause : Failure)
  | playlist (cause : Playlist.ParseError)
  | variantAddress (uri : String) (cause : Url.ParseError)
  | noVariants
  | nestedMaster
  deriving DecidableEq, Repr

/-- What is said of a manifest that leads nowhere. -/
def ManifestError.report : ManifestError → Report
  | .manifest cause => cause.report.within "failed loading HLS manifest"
  | .variant cause => cause.report.within "failed loading HLS variant playlist"
  | .playlist cause => ⟨cause.chain, none⟩
  | .variantAddress uri cause =>
      (Report.plain cause.message).within ("bad variant URI '" ++ uri ++ "'")
  | .noVariants => .plain "master playlist lists no variants"
  | .nestedMaster => .plain "variant playlist is another master"

/-- The segments at the address of a variant. There is no second list of
variants. -/
def mediaAt (address : Url) (answer : Except Failure (List Char)) :
    Except ManifestError (Url × Playlist.Media) := do
  let text ← answer.mapError .variant
  match ← (Playlist.parse text).mapError .playlist with
  | .media playlist => pure (address, playlist)
  | .master _ => throw .nestedMaster

/-- The address of the best variant. -/
def bestAddress (source : Url) (variants : List Playlist.Variant) : Except ManifestError Url :=
  match Playlist.best? variants with
  | none => .error .noVariants
  | some v => (Url.join source v.uri.toList).mapError (.variantAddress v.uri)

/-- Asks for the manifest, and for its best variant if it lists variants. -/
def resolve (c : Client) (source : Url) :
    Dialogue (Except ManifestError (Url × Playlist.Media)) := do
  match ← c.getText source with
  | .error f => pure (.error (.manifest f))
  | .ok text =>
      match Playlist.parse text with
      | .error e => pure (.error (.playlist e))
      | .ok (.media playlist) => pure (.ok (source, playlist))
      | .ok (.master variants) =>
          match bestAddress source variants with
          | .error e => pure (.error e)
          | .ok address => do pure (mediaAt address (← c.getText address))

end VideoWall.Playback
