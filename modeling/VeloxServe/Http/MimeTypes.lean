import VeloxServe.Framework.Message

/-! # MIME Types

    `src/http/mime_types.cpp`: content types by file extension.
-/

namespace VeloxServe

open StdString Message

def mimeMap : List (Bytes × Bytes) :=
  [ -- text
    (bytes ".html", bytes "text/html"),
    (bytes ".htm", bytes "text/html"),
    (bytes ".css", bytes "text/css"),
    (bytes ".js", bytes "application/javascript"),
    (bytes ".json", bytes "application/json"),
    (bytes ".xml", bytes "application/xml"),
    (bytes ".txt", bytes "text/plain"),
    (bytes ".csv", bytes "text/csv"),
    (bytes ".md", bytes "text/markdown"),
    -- images
    (bytes ".png", bytes "image/png"),
    (bytes ".jpg", bytes "image/jpeg"),
    (bytes ".jpeg", bytes "image/jpeg"),
    (bytes ".gif", bytes "image/gif"),
    (bytes ".svg", bytes "image/svg+xml"),
    (bytes ".ico", bytes "image/x-icon"),
    (bytes ".webp", bytes "image/webp"),
    (bytes ".bmp", bytes "image/bmp"),
    -- fonts
    (bytes ".woff", bytes "font/woff"),
    (bytes ".woff2", bytes "font/woff2"),
    (bytes ".ttf", bytes "font/ttf"),
    (bytes ".otf", bytes "font/otf"),
    (bytes ".eot", bytes "application/vnd.ms-fontobject"),
    -- video and audio
    (bytes ".mp4", bytes "video/mp4"),
    (bytes ".webm", bytes "video/webm"),
    (bytes ".mp3", bytes "audio/mpeg"),
    (bytes ".wav", bytes "audio/wav"),
    (bytes ".ogg", bytes "audio/ogg"),
    -- documents
    (bytes ".pdf", bytes "application/pdf"),
    (bytes ".zip", bytes "application/zip"),
    (bytes ".gz", bytes "application/gzip"),
    (bytes ".tar", bytes "application/x-tar"),
    -- web
    (bytes ".wasm", bytes "application/wasm"),
    (bytes ".map", bytes "application/json") ]

/-- The text from the last dot on, lowercased. -/
def fileExtension (filepath : Bytes) : Option Bytes :=
  if (46 : UInt8) ∈ filepath then
    some (toLower (46 :: (filepath.reverse.takeWhile (· ≠ 46)).reverse))
  else none

def getMimeType (filepath : Bytes) : Bytes :=
  match fileExtension filepath with
  | none => bytes "application/octet-stream"
  | some ext => (mimeMap.lookup ext).getD (bytes "application/octet-stream")

/-- A content type is a single line of text. -/
theorem not_infix_getMimeType (filepath : Bytes) : ¬ crlf <:+: getMimeType filepath := by
  have htable : ∀ kv ∈ mimeMap, (13 : UInt8) ∉ kv.2 := by decide +kernel
  have hdefault : (13 : UInt8) ∉ bytes "application/octet-stream" := by decide
  apply not_infix_of_not_mem
  unfold getMimeType
  cases fileExtension filepath with
  | none => exact hdefault
  | some ext =>
    dsimp only
    cases hlook : mimeMap.lookup ext with
    | none => exact hdefault
    | some mime =>
      obtain ⟨before, after, hmem, -⟩ := List.lookup_eq_some_iff.mp hlook
      exact htable (ext, mime) (by simp [hmem])

example : getMimeType (bytes "./www/a.b/Photo.JPG") = bytes "image/jpeg" := by decide +kernel

end VeloxServe
