import Trumpet.Core.CodeSandbox
import Trumpet.Lib.Utf8Lines

/-! A scan counts lines while it reads, a read in the text it has decoded. -/

namespace Trumpet

open FileTree (Location)

namespace CodeTools

/-- Line breaks are neither lost nor made by decoding and encoding again. -/
theorem countLines_decodeLossy (bytes : List UInt8) :
    countLines (Utf8.decodeLossy bytes) = lineTotal bytes := by
  have hdecoded : Utf8.decodeFrom none (Utf8.encode (Utf8.decodeLossy bytes)) =
      Utf8.decodeFrom none bytes := by
    rw [Utf8.decodeFrom_encode, Utf8.decodeLossy, String.toList_ofList]
  have hsound := Utf8.soundFrom_none
  have hcount : (Utf8.encode (Utf8.decodeLossy bytes)).count 10 = bytes.count 10 := by
    rw [← Utf8.count_decodeFrom hsound, hdecoded, Utf8.count_decodeFrom hsound]
  have hlast : (Utf8.encode (Utf8.decodeLossy bytes)).getLast? = some 10 ↔
      bytes.getLast? = some 10 := by
    rw [← Utf8.getLast?_decodeFrom hsound, hdecoded, Utf8.getLast?_decodeFrom hsound]
  have hempty : Utf8.encode (Utf8.decodeLossy bytes) = [] ↔ bytes = [] := by
    have hencoded := @Utf8.decodeFrom_eq_nil none hsound (Utf8.encode (Utf8.decodeLossy bytes))
    rw [hdecoded, Utf8.decodeFrom_eq_nil hsound] at hencoded
    exact ⟨fun h => (hencoded.mpr ⟨rfl, h⟩).2, fun h => (hencoded.mp ⟨rfl, h⟩).2⟩
  unfold countLines lineTotal
  dsimp only
  simp only [hcount, hlast, hempty]
  cases hbytes : bytes.getLast? with
  | none => rw [if_pos (List.getLast?_eq_none_iff.mp hbytes)]
  | some b =>
    have hne : bytes ≠ [] := by
      rintro rfl
      cases hbytes
    dsimp only
    rw [if_neg hne]
    by_cases hb : b = 10
    · rw [if_pos (congrArg some hb), if_pos hb]
    · rw [if_neg fun h => hb (Option.some.inj h), if_neg hb]

/-- A file that is read has the lines of its content. -/
theorem readFileBlocking_lineCount {host : Host} {tools : CodeTools} {path : Location}
    {content : List UInt8} {result : ReadResult}
    (hread : host.tree.read host.links path = .ok content)
    (hresult : tools.readFileBlocking host path = .ok result) :
    result.lineCount = lineTotal content := by
  unfold readFileBlocking at hresult
  rw [hread] at hresult
  cases hstat : host.tree.stat host.links path with
  | error e =>
    rw [hstat] at hresult
    cases hresult
  | ok metadata =>
    rw [hstat] at hresult
    dsimp only at hresult
    split at hresult
    · cases hresult
    · cases hresult
      exact countLines_decodeLossy content

/-- A file that a scan lists can be read, with as many lines. -/
theorem readFileBlocking_described {host : Host} {tools : CodeTools} {e : FileEntry}
    (h : Describes host tools e) :
    ∃ loc result, tools.readFileBlocking host loc = .ok result ∧ result.path = e.path ∧
      result.lineCount = e.lineCount := by
  obtain ⟨loc, content, hin, hsize, rfl⟩ := h
  have hread : tools.readFileBlocking host loc = .ok ⟨display loc, language host (display loc),
      Utf8.decodeLossy content, countLines (Utf8.decodeLossy content)⟩ := by
    have hfits : ¬ (FileTree.Node.file true content).len > tools.config.maxFileSizeBytes :=
      Nat.not_lt.mpr hsize
    rw [readFileBlocking_inside hin, readOf, if_neg hfits]
    rfl
  exact ⟨loc, _, hread, rfl, countLines_decodeLossy content⟩

/-- Both ways of counting agree, for valid text or not: a read reports what counting
any reads of the file gives, and a scan what a read of the file reports. -/
theorem line_counts_agree {reads : List (List UInt8)} (hreads : ∀ buf ∈ reads, buf ≠ []) :
    countLinesStreaming reads = countLines (Utf8.decodeLossy reads.flatten) ∧
      ∀ (host : Host) (tools : CodeTools),
        (∀ path result, host.tree.read host.links path = .ok reads.flatten →
          tools.readFileBlocking host path = .ok result →
          result.lineCount = countLinesStreaming reads) ∧
        ∀ fuel path scan, tools.scanRepo host fuel path = some (.ok scan) →
          ∀ e ∈ scan.files, ∃ loc result, tools.readFileBlocking host loc = .ok result ∧
            result.path = e.path ∧ result.lineCount = e.lineCount := by
  have hlines : countLinesStreaming reads = lineTotal reads.flatten :=
    countLinesStreaming_eq hreads
  refine ⟨hlines.trans (countLines_decodeLossy _).symm, fun host tools => ⟨?_, ?_⟩⟩
  · intro path result hread hresult
    rw [hlines]
    exact readFileBlocking_lineCount hread hresult
  · intro fuel path scan hscan e he
    unfold scanRepo at hscan
    rcases resolveSafePath_cases host tools path with ⟨why, hwhy⟩ | ⟨loc, node, _, hin, hok⟩
    · rw [hwhy] at hscan
      cases hscan
    · rw [hok] at hscan
      exact readFileBlocking_described (scanRepoBlocking_reported hin hscan e he)

/-- The second read begins within a character, the last one with a byte that is none; and
a scan lists one file. -/
theorem line_counts_agree_split :
    let reads : List (List UInt8) := [[104, 0xC3], [0xA9, 10], [0xFF, 10, 120]]
    let tools : CodeTools := ⟨sampleConfig, [sampleWorkspace]⟩
    countLinesStreaming reads = countLines (Utf8.decodeLossy reads.flatten) ∧
      ∃ scan, tools.scanRepo sampleHost 9 "." = some (.ok scan) ∧ scan.files.length = 1 ∧
        ∀ e ∈ scan.files, ∃ loc result, tools.readFileBlocking sampleHost loc = .ok result ∧
          result.path = e.path ∧ result.lineCount = e.lineCount :=
  ⟨(@line_counts_agree [[104, 0xC3], [0xA9, 10], [0xFF, 10, 120]] (by decide)).1, _, rfl, rfl,
    ((@line_counts_agree [] (by decide)).2 sampleHost ⟨sampleConfig, [sampleWorkspace]⟩).2 9 "."
      _ rfl⟩

end CodeTools

end Trumpet
