import VeloxServe.Framework.SelfDelimiting
import VeloxServe.Http.WrittenRequest

/-! # Received Requests

    Where the requests of a byte stream are: one begins where the one before ends,
    and its header block, up to the first blank line, announces the length of its
    body. What the parser makes of a request does not matter, so a request it
    rejects has its place in the stream like any other one.

    On a request the parser accepts the announcement and the parser agree.
-/

namespace VeloxServe

open StdString Message SelfDelimiting

/-- The body length the header lines of a block announce, whatever its first line says. -/
def announcedLength (headerSection : Bytes) : Nat :=
  HttpParser.headerContentLength
    (parseHeaders (HttpParser.splitRequestLine headerSection).2 {}).2

/-- The length of the request a stream begins with, once its header block has ended. -/
def requestSize (stream : Bytes) : Option Nat :=
  (find blankLine stream).map fun headerEnd =>
    headerEnd + 4 + announcedLength (stream.take headerEnd)

theorem requestSize_stable {stream : Bytes} {n : Nat} (h : requestSize stream = some n)
    (rest : Bytes) : requestSize (stream ++ rest) = some n := by
  obtain ⟨e, he, rfl⟩ := Option.map_eq_some_iff.mp h
  have hle := find_add_length_le he (by decide)
  unfold requestSize
  rw [find_append rest he, Option.map_some, List.take_append_of_le_length (by omega)]

/-- The requests of a stream tell their length with the end of their header block. -/
def requestAnnouncer : Announcer UInt8 where
  size := requestSize
  pos := by
    intro s n h
    obtain ⟨e, -, rfl⟩ := Option.map_eq_some_iff.mp h
    omega
  nil := rfl
  stable := requestSize_stable

/-- A request of the stream begins at place `i` and is `n` bytes long. -/
abbrev RequestAt (stream : Bytes) (i n : Nat) : Prop := requestAnnouncer.MessageAt stream i n

theorem requestSize_isSome_iff {stream : Bytes} :
    (requestSize stream).isSome ↔ blankLine <:+: stream := by
  unfold requestSize
  rw [Option.isSome_map, find_isSome_iff]

/-- The headers of an accepted section are those of its lines. -/
theorem headerContentLength_eq {headerSection : Bytes} {req : HttpRequest}
    (h : HttpParser.parseHeaderSection headerSection {} = (true, req)) :
    HttpParser.headerContentLength req = announcedLength headerSection := by
  unfold announcedLength
  unfold HttpParser.parseHeaderSection at h
  generalize HttpParser.splitRequestLine headerSection = lines at h ⊢
  obtain ⟨requestLine, remainingHeaders⟩ := lines
  dsimp only at h ⊢
  rcases hline : parseRequestLine requestLine {} with ⟨_ | _, req₁⟩
  · rw [hline] at h
    cases h
  rw [hline] at h
  obtain ⟨method, path, query, version, rfl, -⟩ := parseRequestLine_spec rfl hline
  dsimp only at h
  split at h
  · next hnil =>
    obtain ⟨-, rfl⟩ := Prod.mk.inj h
    rw [hnil]
    rfl
  · rw [parseHeaders_eq] at h
    obtain ⟨-, rfl⟩ := Prod.mk.inj h
    rw [parseHeaders_eq]
    rfl

/-- **A request the parser accepts** is as long as it announces. -/
theorem IsRequest.requestSize {w : Bytes} (h : IsRequest w) : requestSize w = some w.length := by
  obtain ⟨e, req, he, hsection, hlength⟩ := h.length_eq
  unfold VeloxServe.requestSize
  rw [he, Option.map_some, ← headerContentLength_eq hsection, hlength]

end VeloxServe
