import VeloxServe.Http.WrittenRequest

/-! # Header Blocks

    What a reader finds in a message that was written line by line: the block in
    front of the first blank line, every header of it in its order, and what
    follows the blank line. Whatever has been written into the first line is read
    too, so a CRLF in it opens header lines, and two of them end the block.
-/

namespace VeloxServe

open StdString Message HttpResponse

/-- The headers of a block, after its first line. -/
def blockEntries (block : Bytes) : List (Bytes × Bytes) :=
  headerEntries (HttpParser.splitRequestLine block).2

/-- A reader of the text finds these headers in front of the first blank line, and
    the body behind it. -/
def ReadAs (text : Bytes) (entries : List (Bytes × Bytes)) (body : Bytes) : Prop :=
  ∃ block, text = block ++ blankLine ++ body ∧ find blankLine text = some block.length ∧
    blockEntries block = entries

/-! ## The First Line -/

/-- The headers of a block are those its first line opens and those that follow. -/
theorem blockEntries_append {start : Bytes} (hstart : start.getLast? ≠ some 13) (rest : Bytes) :
    blockEntries (start ++ crlf ++ rest) = blockEntries start ++ headerEntries rest := by
  unfold blockEntries HttpParser.splitRequestLine
  by_cases hin : crlf <:+: start
  · obtain ⟨i, hi⟩ := Option.isSome_iff_exists.mp (find_isSome_iff.mpr hin)
    have hlong : i + 2 ≤ start.length := find_add_length_le hi (by decide)
    have hlast : (start.drop (i + 2)).getLast? ≠ some 13 := by
      rw [List.getLast?_drop]
      split
      · simp
      · exact hstart
    rw [List.append_assoc, find_append (crlf ++ rest) hi, hi]
    dsimp only
    rw [List.drop_append_of_le_length hlong, ← List.append_assoc, headerEntries_append hlast]
  · have hcut : (start ++ crlf ++ rest).drop (start.length + 2) = rest := by
      have hlen : (start ++ crlf).length = start.length + 2 := by simp [crlf]
      rw [← hlen, List.drop_left]
    rw [find_crlf hin, find_eq_none_iff.mpr hin]
    dsimp only
    rw [hcut]
    rfl

/-- An empty line behind the first one is a blank line. -/
theorem infix_of_empty_line {s : Bytes} (h : [] ∈ (splitLines s).tail) :
    blankLine <:+: s ++ crlf := by
  rcases hs : splitLines s with _ | ⟨l₀, ls⟩
  · exact absurd hs (splitLines_ne_nil s)
  rw [hs] at h
  obtain ⟨pre, post, rfl⟩ := List.append_of_mem h
  have hjoin : s = joinLines (l₀ :: pre) ++ crlf ++ joinLines ([] :: post) := by
    rw [← joinLines_append (by simp) (by simp), List.cons_append, ← hs, joinLines_splitLines]
  have hnext : ∃ t, joinLines ([] :: post) ++ crlf = crlf ++ t := by
    rcases post with _ | ⟨l₁, post⟩
    · exact ⟨[], by simp [joinLines]⟩
    · exact ⟨joinLines (l₁ :: post) ++ crlf, by simp [joinLines]⟩
  obtain ⟨t, ht⟩ := hnext
  refine ⟨joinLines (l₀ :: pre), t, ?_⟩
  rw [hjoin, List.append_assoc _ _ crlf, ht]
  simp [blankLine]

/-! ## Written Requests -/

variable {start : Bytes} {kvs : List (Bytes × Bytes)}

/-- The block ends where it was written to end, whatever header lines the first line opens. -/
theorem find_blankLine_writeRequest (hstart : ¬ blankLine <:+: start ++ crlf)
    (hkvs : ∀ kv ∈ kvs, IsWritable kv) (body : Bytes) :
    find blankLine (writeRequest start kvs body) =
      some (joinLines (start :: kvs.map fieldLine)).length := by
  rcases hs : splitLines start with _ | ⟨l₀, ls⟩
  · exact absurd hs (splitLines_ne_nil start)
  -- the first line may open header lines, but no empty one
  have hlines : ∀ line ∈ ls ++ kvs.map fieldLine, line ≠ [] ∧ ¬ crlf <:+: line := by
    intro line hline
    rcases List.mem_append.mp hline with hline | hline
    · constructor
      · rintro rfl
        exact hstart (infix_of_empty_line (by rw [hs]; exact hline))
      · exact not_infix_of_mem_splitLines (hs ▸ List.mem_cons_of_mem _ hline)
    · obtain ⟨kv, hkv, rfl⟩ := List.mem_map.mp hline
      refine ⟨fieldLine_ne_nil kv, fun hin => (hkvs kv hkv).not_mem (hin.subset (by decide))⟩
  have hl₀ : ¬ crlf <:+: l₀ := not_infix_of_mem_splitLines (hs ▸ List.mem_cons_self)
  -- the lines it opens are lines of the block like the written ones
  have hsame : ∀ lines : List Bytes,
      writeLines (start :: lines) = writeLines (l₀ :: (ls ++ lines)) := by
    intro lines
    have hfirst : start ++ crlf = writeLines (l₀ :: ls) := by
      rw [writeLines_eq_joinLines (by simp), ← hs, joinLines_splitLines]
    show start ++ crlf ++ writeLines lines = _
    rw [hfirst]
    simp [writeLines]
  have hfind := find_blankLine body hl₀ hlines
  have hlength := congrArg List.length (hsame (kvs.map fieldLine))
  rw [writeLines_eq_joinLines (by simp), writeLines_eq_joinLines (by simp), List.length_append,
    List.length_append] at hlength
  unfold writeRequest
  rw [hsame, hfind]
  congr 1
  omega

/-- **What is read of a written request.** -/
theorem readAs_writeRequest (hlast : start.getLast? ≠ some 13) (hkvs : ∀ kv ∈ kvs, IsWritable kv)
    (hne : kvs ≠ []) (entries : List (Bytes × Bytes)) (body : Bytes) :
    ReadAs (writeRequest start kvs body) entries body ↔
      ¬ blankLine <:+: start ++ crlf ∧ entries = blockEntries start ++ kvs.map readHeader := by
  have hlines : kvs.map fieldLine ≠ [] := by simpa using hne
  have htext : writeRequest start kvs body =
      joinLines (start :: kvs.map fieldLine) ++ blankLine ++ body := by
    rw [writeRequest, writeLines_eq_joinLines (by simp)]
    simp [blankLine]
  have hentries : blockEntries (joinLines (start :: kvs.map fieldLine)) =
      blockEntries start ++ kvs.map readHeader := by
    rw [joinLines_cons _ hlines, blockEntries_append hlast, headerEntries_joinLines,
      filterMap_fieldLine hkvs]
    intro line hline
    obtain ⟨kv, hkv, rfl⟩ := List.mem_map.mp hline
    exact ⟨(hkvs kv hkv).not_mem, (hkvs kv hkv).getLast?⟩
  constructor
  · rintro ⟨block, hblock, hfound, rfl⟩
    have heq : block = joinLines (start :: kvs.map fieldLine) := by
      rw [htext, List.append_assoc, List.append_assoc] at hblock
      exact (List.append_cancel_right hblock).symm
    constructor
    · -- a blank line in the first line would be found before the written one
      intro hin
      obtain ⟨j, hj⟩ := Option.isSome_iff_exists.mp (find_isSome_iff.mpr hin)
      have hearly := find_add_length_le hj (by decide)
      have hcut : writeRequest start kvs body =
          start ++ crlf ++ (joinLines (kvs.map fieldLine) ++ blankLine ++ body) := by
        rw [htext, joinLines_cons _ hlines]
        simp
      rw [hcut, find_append _ hj] at hfound
      obtain rfl := Option.some.inj hfound
      rw [heq, joinLines_cons _ hlines] at hearly
      simp only [List.length_append, blankLine] at hearly
      have hcrlf : crlf.length = 2 := rfl
      omega
    · rw [heq, hentries]
  · rintro ⟨hstart, rfl⟩
    exact ⟨_, htext, find_blankLine_writeRequest hstart hkvs body, hentries⟩

/-! ## Single Headers -/

/-- The header occurs once, with this value: a reader that keeps the last
    occurrence and one that keeps the first both find it. -/
structure SaysOnce (entries : List (Bytes × Bytes)) (kv : Bytes × Bytes) : Prop where
  once : entries.filter (fun e => e.1 = kv.1) = [kv]
  last : (UnorderedMap.setAll entries ∅).lookup kv.1 = some kv.2
  first : entries.find? (fun e => e.1 = kv.1) = some kv

theorem saysOnce_iff {entries : List (Bytes × Bytes)} {kv : Bytes × Bytes} :
    SaysOnce entries kv ↔ entries.filter (fun e => e.1 = kv.1) = [kv] := by
  constructor
  · exact fun h => h.once
  · intro h
    have hkv : kv ∈ entries.filter (fun e => e.1 = kv.1) := by
      rw [h]
      exact List.mem_singleton_self kv
    refine ⟨h, ?_, ?_⟩
    · -- a reader that keeps the last occurrence
      apply UnorderedMap.lookup_setAll
      · exact List.mem_map_of_mem (List.mem_of_mem_filter hkv)
      · intro e he hname
        have hmem : e ∈ entries.filter (fun e => e.1 = kv.1) :=
          List.mem_filter.mpr ⟨he, by simpa using hname⟩
        rw [h] at hmem
        rw [List.mem_singleton.mp hmem]
    · -- a reader that keeps the first
      rw [← List.head?_filter, h]
      rfl

/-- Among distinct names each one occurs once. -/
theorem filter_of_nodup {entries : List (Bytes × Bytes)} (h : (entries.map Prod.fst).Nodup)
    {kv : Bytes × Bytes} (hkv : kv ∈ entries) : entries.filter (fun e => e.1 = kv.1) = [kv] := by
  have hnodup : (entries.filter fun e => e.1 = kv.1).Nodup := (List.Nodup.of_map _ h).filter _
  have hmem : ∀ e, e ∈ entries.filter (fun e => e.1 = kv.1) ↔ e = kv := by
    intro e
    rw [List.mem_filter]
    constructor
    · rintro ⟨he, hname⟩
      exact List.inj_on_of_nodup_map h he hkv (by simpa using hname)
    · rintro rfl
      exact ⟨hkv, by simp⟩
  exact List.perm_singleton.mp
    ((List.perm_ext_iff_of_nodup hnodup (List.nodup_singleton kv)).mpr fun e => by
      rw [hmem, List.mem_singleton])

end VeloxServe
