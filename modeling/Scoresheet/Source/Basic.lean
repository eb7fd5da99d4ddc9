import Scoresheet.Source.Glob
import Scoresheet.Text.Case
import Scoresheet.Text.Utf8

/-!
# Sources of games

A source is a file with game texts, plain or compressed. It is named outright, or it is one of the
files that a path pattern stands for; a pattern gives its files in ascending order of their paths
and passes over directories.
-/

namespace Scoresheet

open Text

/-! ## Options -/

/-- How the sources are compressed. -/
inductive Compression
  | plain
  | zstd
  deriving DecidableEq, Repr

/-- An option that cannot be followed. -/
inductive UnsupportedOption
  /-- No such compression is known. -/
  | compression (value : Text)
  /-- No path was given to read from. -/
  | noPath
  deriving DecidableEq, Repr

def UnsupportedOption.message : UnsupportedOption → Text
  | compression value => "Invalid compression value '".toList ++ value
      ++ "'. Supported values: 'zstd' or NULL/omitted.".toList
  | noPath => "PGN_PATH is not set; nothing to ingest".toList

/-- The compression that an option asks for; without the option the sources are plain. -/
def Compression.ofOption : Option Text → Except UnsupportedOption Compression
  | none => .ok .plain
  | some value =>
    let name := lower (trim value)
    if name = "zstd".toList then .ok .zstd
    else if name = "null".toList then .ok .plain
    else .error (.compression value)

/-! ## Errors -/

/-- Why a source cannot be read. -/
inductive SourceError
  | noMatch (pattern : Text)
  | unopenable (path : Text) (fault : PathFault)
  /-- The file is not compressed as it should be. -/
  | notPacked (path : Text)
  /-- Reading the opened file came to a fault. -/
  | unreadable (compression : Compression) (path cause : Text)
  deriving DecidableEq, Repr

namespace SourceError

/-- The error lies in the compression of a source. -/
def isDecompression : SourceError → Bool
  | noMatch _ | unopenable _ _ => false
  | notPacked _ => true
  | unreadable compression _ _ => compression == .zstd

def message : SourceError → Text
  | noMatch pattern => "No files match pattern '".toList ++ pattern ++ ['\'']
  | unopenable _ .embeddedNul => PathFault.embeddedNul.message []
  | unopenable path fault =>
    "Failed to open file '".toList ++ path ++ "': ".toList ++ fault.message path
  | notPacked path =>
    "Failed to decompress file '".toList ++ path ++ "': not a zstd frame".toList
  | unreadable _ path cause =>
    "Failed to read file '".toList ++ path ++ "': ".toList ++ cause

end SourceError

/-! ## Finding sources -/

/-- A file to read games from. -/
structure Source where
  path : Text
  /-- The source was named outright, so that it has to be readable. -/
  explicit : Bool
  deriving DecidableEq, Repr

namespace Source

/-- Whether a path is a pattern. -/
def isPattern (path : Text) : Bool := Wildcard.occursIn path

/-- The sources that a path or pattern stands for. A path without wildcards is a source whether or
not there is such a file. -/
def resolve (tree : FileTree) (pattern : Text) : Except SourceError (List Source) :=
  if isPattern pattern then
    if (Glob.Pattern.ofText pattern).directory.contains '\x00' then
      .error (.unopenable pattern .embeddedNul)
    else match (Glob.expand tree pattern).filter (!tree.isDirectory ·) with
    | [] => .error (.noMatch pattern)
    | paths => .ok ((paths.mergeSort fun a b => !decide (b < a)).map (⟨·, false⟩))
  else .ok [⟨pattern, true⟩]

/-! ## Opening sources -/

/-- The text of a source as lines, and what is reported where reading on is not possible. -/
structure Content where
  lines : List Line
  fault : Option Text
  deriving DecidableEq, Repr

/-- The text that a stream of octets gives. Where it comes to a fault, the line in which it breaks
off is not given. -/
def contentOf (stream : OctetStream) : Content :=
  match stream.fault with
  | none => ⟨lines (unifyNewlines (decodeUtf8 stream.octets)), none⟩
  | some cause => ⟨endedLines (decodeUtf8SoFar stream.octets), some cause⟩

/-- The octets that a compressed file starts with. -/
def zstdMagic : List UInt8 := [0x28, 0xB5, 0x2F, 0xFD]

/-- Opens the file at a path. -/
def openAt (tree : FileTree) (compression : Compression) (path : Text) :
    Except SourceError Content := do
  let file ← (tree.fileAt path).mapError (.unopenable path)
  match compression with
  | .plain => return contentOf ⟨file.octets, none⟩
  | .zstd =>
    if zstdMagic.isPrefixOf file.octets then return contentOf file.unpacked
    else .error (.notPacked path)

end Source

end Scoresheet
