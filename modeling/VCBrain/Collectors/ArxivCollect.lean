import VCBrain.Collectors.ArxivDiscovery
import VCBrain.Collectors.GithubCollect
import VCBrain.Collectors.SignalSelection
import VCBrain.Foundation.Comparator
import VCBrain.Uploads

set_option relaxedAutoImplicit false
set_option autoImplicit false

/-!
# Collection on arXiv

`collect` reads the papers of an author and reports their number, their citations and the
co-authors. At depth `deep` it also downloads the paper that is cited most, within limits, and
reports the text of each page. A PDF that is rejected fails the collection, and a download that
breaks does not.

## Main definitions

* `arxivCollect` — `ArxivConnector.collect`, of the answers to its requests.
* `fetchPdf` — the download of a PDF with its checks.
* `Tolerated` — the answers to the request of a PDF that do not fail the collection.
* `PageEvidence` — each page of a PDF is reported where it stands.

## Main results

* `arxivCollect_accepted_iff` — the answers whose collection succeeds and is accepted.
* `pageEvidence_of_collect` — what a collection stores of a PDF is read back from it.

## Design

The XML library, the PDF library and the server of citations are parameters. A request that raises
raises no `ConnectorError`, and a response is not compressed.
-/

namespace Str

/-- What is left of a stripped text does not begin with whitespace. -/
lemma not_isSpace_of_strip_eq_cons {s t : Str} {c : Char} (h : strip s = c :: t) :
    ¬ isSpace c = true := by
  intro hc
  have hdrop : lstrip (c :: t) = lstrip t := List.dropWhile_cons_of_pos hc
  have hshort : (strip (c :: t)).length ≤ t.length := by
    rw [strip, hdrop]
    exact (List.rdropWhile_prefix isSpace (lstrip t)).length_le.trans
      (List.dropWhile_suffix isSpace).length_le
  have hself : strip (c :: t) = c :: t := by rw [← h, strip_strip]
  rw [hself, List.length_cons] at hshort
  omega

/-- The beginning of a stripped text is blank only if it is empty. -/
lemma blank_take_strip_iff {s : Str} {n : ℕ} :
    Blank ((strip s).take n) ↔ (strip s).take n = [] := by
  constructor
  · intro h
    cases hstrip : strip s with
    | nil => rw [List.take_nil]
    | cons c t =>
      cases n with
      | zero => rfl
      | succ n =>
        rw [hstrip] at h
        exact absurd (h c (List.mem_cons_self ..)) (not_isSpace_of_strip_eq_cons hstrip)
  · intro h c hc
    rw [h] at hc
    cases hc

end Str

namespace VCBrain

/-! ## What is outside -/

/-- `_MAX_EVIDENCE_PAGES`. -/
def maxEvidencePages : ℕ := 20

/-- `_MAX_PAGE_CHARS`. -/
def maxPageChars : ℕ := 2000

/-- `_MAX_PDF_BYTES`. -/
def maxPdfBytes : ℕ := 25 * 1024 * 1024

/-- An entry of the feed of an author; texts that are absent are empty. -/
structure FeedEntry extends AtomEntry where
  title : Str := []
  summary : Str := []
  published : Str := []
  categories : List Str := []

/-- A PDF as the library reads it; the text of a page is `none` if its extraction raises. -/
structure PdfReader where
  isEncrypted : Bool
  pages : List (Option Str)

/-- What the connector takes from outside. -/
structure ArxivCollectEnv extends ArxivEnv where
  /-- `str.isdigit` for one character. -/
  isDigit : Char → Bool
  /-- The value of a decimal digit. -/
  decimal : Char → ℕ
  /-- `PdfReader(…, strict=True)`; `none` if it raises. -/
  readPdf : List UInt8 → Option PdfReader

/-- The answer to the request for the papers of an author. -/
inductive AuthorReply where
  | raised
  | response (status : ℕ) (feed : Except Str (List FeedEntry))

/-- The answer to the request of a PDF: an exception, or a response with its type and the length it
declares, which are empty where absent, and its chunks, behind which it may break. -/
inductive PdfReply where
  | raised
  | response (status : ℕ) (contentType contentLength : Str) (chunks : List (List UInt8))
      (broken : Bool)

/-- How `collect` fails: by a `ConnectorError`, or by another exception. -/
inductive CollectFailure where
  | connector (message : Str)
  | other

/-! ## Papers -/

/-- A paper as it is kept. -/
structure Paper where
  arxivId : Str
  title : Str
  summary : Str
  published : Str
  categories : List Str
  authors : List Str
  citations : ℕ

/-- The paper of an entry. -/
def paper (env : ArxivCollectEnv) (entry : FeedEntry) : Paper where
  arxivId := arxivId entry.id.strip
  title := entry.title.strip
  summary := entry.summary.strip.take 2000
  published := entry.published
  categories := entry.categories.filter (· ≠ [])
  authors := entry.authors.filter (· ≠ [])
  citations := env.citations (arxivId entry.id.strip)

/-- The loop over the entries. -/
def papersOf (env : ArxivCollectEnv) : List FeedEntry → Except CollectFailure (List Paper)
  | [] => .ok []
  | entry :: entries =>
    if entry.id.strip = [] then
      .error (.connector
        "arxiv_author_fetch_failed: invalid provider response: Atom entry is missing id")
    else if arxivId entry.id.strip = [] then
      .error (.connector
        "arxiv_author_fetch_failed: invalid provider response: Atom entry has an empty id")
    else (papersOf env entries).map fun papers => paper env entry :: papers

/-- `sorted(coauthors)`. -/
def coauthorsOf (ucd : Ucd) (author : Str) (papers : List Paper) : List Str :=
  sortedSet ((papers.flatMap Paper.authors).filter fun name => ucd.lower name ≠ ucd.lower author)

/-- A fact from the API, with its locator. -/
def apiFact (now : Time) (author sourceUri predicate field value : Str) (confidence : ℚ) :
    Payload where
  predicate := predicate
  objectValue := value
  observedAt := some now
  confidence := some confidence
  sourceLocator := some (.obj [("kind", .str "api_field"), ("source_uri", .str sourceUri),
    ("field", .str field), ("query", .str author)])

/-- What is reported of the papers. -/
def paperFacts (ucd : Ucd) (now : Time) (author sourceUri : Str) (papers : List Paper) :
    List Payload :=
  let coauthors := List.intercalate [','] (coauthorsOf ucd author papers)
  [apiFact now author sourceUri "arxiv_paper_count" "paper_count"
      (Json.dumps (.int papers.length)) 1,
    apiFact now author sourceUri "arxiv_total_citations" "total_citations"
      (Json.dumps (.int (papers.map Paper.citations).sum)) (8 / 10),
    apiFact now author sourceUri "arxiv_coauthors" "coauthors"
      (if coauthors = [] then "[No coauthors found]" else coauthors) (7 / 10)]

/-- `papers.sort(key=lambda p: p.get("citations", 0), reverse=True)`. -/
def byCitations (papers : List Paper) : List Paper :=
  (Comparator.descending fun paper : Paper => (paper.citations : ℚ)).sort papers

/-- A paper in the stored snapshot. -/
def Paper.json (paper : Paper) : Json :=
  .obj [("arxiv_id", .str paper.arxivId), ("title", .str paper.title),
    ("summary", .str paper.summary), ("published", .str paper.published),
    ("categories", .arr (paper.categories.map .str)), ("authors", .arr (paper.authors.map .str)),
    ("citations", .int paper.citations)]

/-- `canonical_json_bytes(papers)`. -/
def papersBytes (papers : List Paper) : List UInt8 :=
  utf8 (Json.dumps (.arr (papers.map Paper.json)))

/-! ## The PDF -/

/-- The address of the PDF of a paper. -/
def pdfUrl (paper : Paper) : Str :=
  "https://arxiv.org/pdf/".toList ++ paper.arxivId ++ ".pdf".toList

/-- `arxiv_pdf_rejected: response exceeds {max_bytes}-byte limit`. -/
def pdfTooLarge : CollectFailure :=
  .connector ("arxiv_pdf_rejected: response exceeds ".toList ++ Str.decimal maxPdfBytes ++
    "-byte limit".toList)

/-- `content-type` without its parameters. -/
def mediaType (ucd : Ucd) (contentType : Str) : Str :=
  ucd.lower (Str.strip (contentType.takeWhile (· ≠ ';')))

/-- The length that a response declares: `some none` if it declares none, and `none` if `int`
raises. -/
def declaredPdfLength (env : ArxivCollectEnv) (contentLength : Str) : Option (Option ℕ) :=
  let declared := contentLength.strip
  if declared ≠ [] ∧ declared.all env.isDigit then
    if declared.all env.ucd.isDecimal then (intOfDigits env.decimal declared).map some else none
  else some none

/-- `_validate_pdf_headers`. -/
def validatePdfHeaders (env : ArxivCollectEnv) (status : ℕ) (contentType contentLength : Str) :
    Except CollectFailure Unit :=
  if status ≠ 200 then
    .error (.connector ("arxiv_pdf_rejected: HTTP ".toList ++ Str.decimal status))
  else if mediaType env.ucd contentType ≠ "application/pdf" then
    .error (.connector "arxiv_pdf_rejected: response is not application/pdf")
  else
    match declaredPdfLength env contentLength with
    | none => .error .other
    | some none => .ok ()
    | some (some length) => if maxPdfBytes < length then .error pdfTooLarge else .ok ()

/-- The loop over the chunks of a response. -/
def readPdfChunks (broken : Bool) (read : List UInt8) :
    List (List UInt8) → Except CollectFailure (List UInt8)
  | [] => if broken then .error .other else .ok read
  | chunk :: chunks =>
    if maxPdfBytes < read.length + chunk.length then .error pdfTooLarge
    else readPdfChunks broken (read ++ chunk) chunks

/-- `_count_pdf_pages`. -/
def countPdfPages (env : ArxivCollectEnv) (content : List UInt8) : Except CollectFailure ℕ :=
  match env.readPdf content with
  | none => .error (.connector "arxiv_pdf_rejected: PDF could not be parsed safely")
  | some reader =>
    if reader.isEncrypted then .error (.connector "arxiv_pdf_rejected: encrypted PDF")
    else if reader.pages.length < 1 then .error (.connector "arxiv_pdf_rejected: PDF has no pages")
    else if maxEvidencePages < reader.pages.length then
      .error (.connector ("arxiv_pdf_rejected: PDF exceeds ".toList ++
        Str.decimal maxEvidencePages ++ "-page limit".toList))
    else .ok reader.pages.length

/-- `_validate_pdf_response`, behind the check of the headers. -/
def validatePdfContent (env : ArxivCollectEnv) (content : List UInt8) :
    Except CollectFailure (List UInt8) :=
  if maxPdfBytes < content.length then .error pdfTooLarge
  else if ¬ pdfMagic.isPrefixOf content then
    .error (.connector "arxiv_pdf_rejected: response does not have PDF magic bytes")
  else (countPdfPages env content).map fun _ => content

/-- `_read_bounded_pdf_response` and `_validate_pdf_response`. -/
def fetchPdf (env : ArxivCollectEnv) : PdfReply → Except CollectFailure (List UInt8)
  | .raised => .error .other
  | .response status contentType contentLength chunks broken => do
    validatePdfHeaders env status contentType contentLength
    let content ← readPdfChunks broken [] chunks
    validatePdfHeaders env status contentType contentLength
    validatePdfContent env content

/-- `[No extractable text on page]`. -/
def noPageText : Str := "[No extractable text on page]"

/-- The text of a page that is reported. -/
def boundedPageText (text : Option Str) : Str := (text.getD []).strip.take maxPageChars

/-- Why a page has no text. -/
def pageReason : Option Str → List (Str × Json)
  | none => [("reason", .str "text_extraction_failed")]
  | some text => if text.strip = [] then [("reason", .str "no_extractable_text")] else []

/-- The locator of a page. -/
def pageLocator (author url identityConfidence : Str) (page : ℕ) (text : Option Str) : Json :=
  .obj (("kind", .str "pdf_page") :: ("source_uri", .str url) :: ("page", .int page) ::
    ("char_start", .int 0) :: ("char_end", .int (boundedPageText text).length) ::
    ("author", .str author) :: ("author_identity_confidence", .float identityConfidence) ::
    pageReason text)

/-- What is reported of a page. -/
def pageObservation (now : Time) (author url identityConfidence : Str) (page : ℕ)
    (text : Option Str) : Payload where
  predicate := "arxiv_pdf_page_text"
  objectValue := if boundedPageText text = [] then noPageText else boundedPageText text
  observedAt := some now
  confidence := some (9 / 10)
  sourceLocator := some (pageLocator author url identityConfidence page text)

/-- `_extract_pdf_page_observations`. -/
def extractPdfPageObservations (env : ArxivCollectEnv) (now : Time)
    (author url identityConfidence : Str) (content : List UInt8) : List Payload :=
  match env.readPdf content with
  | none => []
  | some reader => (reader.pages.take maxEvidencePages).mapIdx fun index text =>
      pageObservation now author url identityConfidence (index + 1) text

/-- The confidence that the author wrote the paper. -/
def identityConfidence (ucd : Ucd) (author : Str) (paper : Paper) : Str :=
  if paper.authors.any fun name => ucd.lower name = ucd.lower author then "0.8" else "0.0"

/-! ## The connector -/

section Collect

variable (env : ArxivCollectEnv) (hash : List UInt8 → Str) (now : Time) (author sourceUri : Str)

/-- The result without a PDF. -/
def collectedPapers (facts : List Payload) (papers : List Paper) : Collected where
  sourceType := "arxiv"
  uri := sourceUri
  contentHash := hash (papersBytes papers)
  licenseHint := some (.obj [("source", .str "arXiv API"),
    ("terms", .str "https://info.arxiv.org/help/api/tou.html")])
  observations := facts

/-- The result with the PDF of a paper. -/
def collectedPdf (facts : List Payload) (top : Paper) (content : List UInt8) : Collected where
  sourceType := "arxiv"
  uri := pdfUrl top
  contentHash := hash content
  licenseHint := some (.obj [("source", .str "arXiv PDF"),
    ("terms", .str "https://info.arxiv.org/help/api/tou.html"),
    ("evidence_depth", .str "page_coordinates")])
  observations := facts ++ extractPdfPageObservations env now author (pdfUrl top)
    (identityConfidence env.ucd author top) content

/-- `collect` at depth `deep`, once the papers are read. -/
def collectDeep (facts : List Payload) (papers : List Paper) (pdf : Str → PdfReply) :
    Except CollectFailure Collected :=
  match byCitations papers with
  | [] => .ok (collectedPapers hash sourceUri facts [])
  | top :: rest =>
    match fetchPdf env (pdf (pdfUrl top)) with
    | .ok content => .ok (collectedPdf env hash now author facts top content)
    | .error (.connector message) => .error (.connector message)
    | .error .other => .ok (collectedPapers hash sourceUri facts (top :: rest))

/-- `ArxivConnector.collect`. -/
def arxivCollect (reply : AuthorReply) (pdf : Str → PdfReply) (depth : Depth) :
    Except CollectFailure Collected :=
  match reply with
  | .raised => .error .other
  | .response status feed =>
    if status ≠ 200 then
      .error (.connector ("arxiv_author_fetch_failed: ".toList ++ Str.decimal status))
    else
      match feed with
      | .error message => .error (.connector message)
      | .ok entries => do
        let papers ← papersOf env entries
        let facts := paperFacts env.ucd now author sourceUri papers
        match depth with
        | .light => .ok (collectedPapers hash sourceUri facts papers)
        | .deep => collectDeep env hash now author sourceUri facts papers pdf

end Collect

/-! ## Answers -/

/-- The content is a PDF that can be read, with one to twenty pages. -/
def ReadablePdf (env : ArxivCollectEnv) (content : List UInt8) : Prop :=
  pdfMagic.isPrefixOf content = true ∧ ∃ reader, env.readPdf content = some reader ∧
    reader.isEncrypted = false ∧ 1 ≤ reader.pages.length ∧ reader.pages.length ≤ maxEvidencePages

/-- The answers to the request of a PDF that do not fail the collection: it raises, or the response
is a PDF within the limits, unless its length cannot be read or it breaks. -/
def Tolerated (env : ArxivCollectEnv) : PdfReply → Prop
  | .raised => True
  | .response status contentType contentLength chunks broken =>
    status = 200 ∧ mediaType env.ucd contentType = "application/pdf" ∧
      ∀ declared, declaredPdfLength env contentLength = some declared →
        (∀ length ∈ declared, length ≤ maxPdfBytes) ∧ chunks.flatten.length ≤ maxPdfBytes ∧
          (broken = false → ReadablePdf env chunks.flatten)

section Pdf

variable {env : ArxivCollectEnv} {reply : PdfReply} {content : List UInt8} {broken : Bool}

/-- How a response is cut into chunks does not matter.

**Proof sketch.** Induction on the chunks; what was read before is within the limit. -/
lemma readPdfChunks_eq (broken : Bool) (chunks : List (List UInt8)) {read : List UInt8}
    (hread : read.length ≤ maxPdfBytes) : readPdfChunks broken read chunks =
      if maxPdfBytes < (read ++ chunks.flatten).length then .error pdfTooLarge
      else if broken then .error .other else .ok (read ++ chunks.flatten) := by
  induction chunks generalizing read with
  | nil => simp [readPdfChunks, hread]
  | cons chunk chunks ih =>
    unfold readPdfChunks
    rw [List.flatten_cons, ← List.append_assoc]
    by_cases hfits : maxPdfBytes < read.length + chunk.length
    · have hlong : maxPdfBytes < (read ++ chunk ++ chunks.flatten).length := by
        simp only [List.length_append]
        omega
      rw [if_pos hfits, if_pos hlong]
    · rw [if_neg hfits, ih (by rw [List.length_append]; omega)]

/-- A content within the limit is let through, or rejected. -/
lemma validatePdfContent_cases (hlength : content.length ≤ maxPdfBytes) :
    (ReadablePdf env content ∧ validatePdfContent env content = .ok content) ∨
      (¬ ReadablePdf env content ∧
        ∃ message, validatePdfContent env content = .error (.connector message)) := by
  unfold validatePdfContent ReadablePdf countPdfPages
  rw [if_neg (by omega)]
  by_cases hmagic : pdfMagic.isPrefixOf content = true
  · rw [if_neg (not_not.mpr hmagic)]
    cases hread : env.readPdf content with
    | none =>
      refine Or.inr ⟨?_, _, rfl⟩
      rintro ⟨-, reader, heq, -⟩
      cases heq
    | some reader =>
      dsimp only
      by_cases hencrypted : reader.isEncrypted = true
      · rw [if_pos hencrypted]
        refine Or.inr ⟨?_, _, rfl⟩
        rintro ⟨-, _, heq, hplain, -⟩
        cases heq
        exact absurd hencrypted (by simp [hplain])
      · rw [if_neg hencrypted]
        by_cases hempty : reader.pages.length < 1
        · rw [if_pos hempty]
          refine Or.inr ⟨?_, _, rfl⟩
          rintro ⟨-, _, heq, -, hsome, -⟩
          cases heq
          omega
        · rw [if_neg hempty]
          by_cases hlong : maxEvidencePages < reader.pages.length
          · rw [if_pos hlong]
            refine Or.inr ⟨?_, _, rfl⟩
            rintro ⟨-, _, heq, -, -, hfew⟩
            cases heq
            omega
          · rw [if_neg hlong]
            exact Or.inl ⟨⟨hmagic, reader, rfl, by simpa using hencrypted, by omega, by omega⟩, rfl⟩
  · rw [if_pos hmagic]
    exact Or.inr ⟨fun h => hmagic h.1, _, rfl⟩

/-- The headers are let through, or `int` raises, or they are rejected. -/
lemma validatePdfHeaders_cases (env : ArxivCollectEnv) (status : ℕ)
    (contentType contentLength : Str) :
    ((status = 200 ∧ mediaType env.ucd contentType = "application/pdf") ∧
      ((declaredPdfLength env contentLength = none ∧
        validatePdfHeaders env status contentType contentLength = .error .other) ∨
      ∃ declared, declaredPdfLength env contentLength = some declared ∧
        (∀ length ∈ declared, length ≤ maxPdfBytes) ∧
          validatePdfHeaders env status contentType contentLength = .ok ())) ∨
    ((status = 200 → mediaType env.ucd contentType = "application/pdf" →
      ∃ length, declaredPdfLength env contentLength = some (some length) ∧ maxPdfBytes < length) ∧
      ∃ message, validatePdfHeaders env status contentType contentLength =
        .error (.connector message)) := by
  unfold validatePdfHeaders
  by_cases hstatus : status = 200
  · rw [if_neg (not_not.mpr hstatus)]
    by_cases htype : mediaType env.ucd contentType = "application/pdf"
    · rw [if_neg (not_not.mpr htype)]
      cases hdeclared : declaredPdfLength env contentLength with
      | none => exact Or.inl ⟨⟨hstatus, htype⟩, Or.inl ⟨rfl, rfl⟩⟩
      | some declared =>
        cases declared with
        | none => exact Or.inl ⟨⟨hstatus, htype⟩, Or.inr ⟨none, rfl, by simp, rfl⟩⟩
        | some length =>
          dsimp only
          by_cases hlong : maxPdfBytes < length
          · rw [if_pos hlong]
            exact Or.inr ⟨fun _ _ => ⟨length, rfl, hlong⟩, _, rfl⟩
          · rw [if_neg hlong]
            exact Or.inl ⟨⟨hstatus, htype⟩, Or.inr ⟨some length, rfl, by simpa using hlong, rfl⟩⟩
    · rw [if_pos htype]
      exact Or.inr ⟨fun _ h => absurd h htype, _, rfl⟩
  · rw [if_pos hstatus]
    exact Or.inr ⟨fun h => absurd h hstatus, _, rfl⟩

/-- **The download.** It breaks, or returns a PDF within the limits, and then the answer is
tolerated; or it is rejected, and then it is not. -/
lemma fetchPdf_cases (env : ArxivCollectEnv) (reply : PdfReply) :
    (Tolerated env reply ∧ fetchPdf env reply = .error .other) ∨
    (Tolerated env reply ∧ ∃ content, fetchPdf env reply = .ok content ∧
      ReadablePdf env content ∧ content.length ≤ maxPdfBytes) ∨
    (¬ Tolerated env reply ∧ ∃ message, fetchPdf env reply = .error (.connector message)) := by
  cases reply with
  | raised => exact Or.inl ⟨trivial, rfl⟩
  | response status contentType contentLength chunks broken =>
    unfold fetchPdf
    dsimp only
    rcases validatePdfHeaders_cases env status contentType contentLength with
      ⟨⟨hstatus, htype⟩, ⟨hraises, hheaders⟩ | ⟨declared, hdeclared, hfits, hheaders⟩⟩ |
        ⟨hrejected, message, hheaders⟩
    · rw [hheaders]
      refine Or.inl ⟨⟨hstatus, htype, fun declared hdeclared => ?_⟩, rfl⟩
      rw [hraises] at hdeclared
      cases hdeclared
    · have hempty : ([] : List UInt8).length ≤ maxPdfBytes := Nat.zero_le _
      have hchunks := readPdfChunks_eq broken chunks hempty
      rw [List.nil_append] at hchunks
      rw [hheaders, hchunks]
      by_cases hlong : maxPdfBytes < chunks.flatten.length
      · rw [if_pos hlong]
        refine Or.inr (Or.inr ⟨?_, _, rfl⟩)
        rintro ⟨-, -, h⟩
        exact absurd (h declared hdeclared).2.1 (by omega)
      · rw [if_neg hlong]
        cases broken with
        | true =>
          refine Or.inl ⟨⟨hstatus, htype, fun declared' h => ?_⟩, rfl⟩
          rw [hdeclared] at h
          cases h
          exact ⟨hfits, not_lt.mp hlong, fun h => by cases h⟩
        | false =>
          have htolerated : Tolerated env (.response status contentType contentLength chunks false)
              ↔ ReadablePdf env chunks.flatten := by
            constructor
            · exact fun h => (h.2.2 declared hdeclared).2.2 rfl
            · refine fun h => ⟨hstatus, htype, fun declared' h' => ?_⟩
              rw [hdeclared] at h'
              cases h'
              exact ⟨hfits, not_lt.mp hlong, fun _ => h⟩
          rw [htolerated]
          rcases @validatePdfContent_cases env _ (not_lt.mp hlong) with
            ⟨hreadable, hcontent⟩ | ⟨hunreadable, message, hcontent⟩
          · exact Or.inr (Or.inl ⟨hreadable, _, hcontent, hreadable, not_lt.mp hlong⟩)
          · exact Or.inr (Or.inr ⟨hunreadable, message, hcontent⟩)
    · rw [hheaders]
      refine Or.inr (Or.inr ⟨?_, message, rfl⟩)
      rintro ⟨hstatus, htype, h⟩
      obtain ⟨length, hlength, hlong⟩ := hrejected hstatus htype
      exact absurd ((h (some length) hlength).1 length rfl) (by omega)

end Pdf

/-! ## What is accepted -/

/-- Co-authors that are reported as a blank text: a single one, without a visible name. -/
def BlankCoauthors (coauthors : List Str) : Prop := ∃ name, coauthors = [name] ∧ name.Blank

section Accepted

variable {env : ArxivCollectEnv} {hash : List UInt8 → Str} {now : Time} {author sourceUri : Str}
  {entries : List FeedEntry} {papers : List Paper} {facts : List Payload} {pdf : Str → PdfReply}
  {collected : Collected} {content : List UInt8} {top : Paper}

lemma papersOf_cases (env : ArxivCollectEnv) (entries : List FeedEntry) :
    ((∀ entry ∈ entries, arxivId entry.id.strip ≠ []) ∧
      papersOf env entries = .ok (entries.map (paper env))) ∨
    ((∃ entry ∈ entries, arxivId entry.id.strip = []) ∧
      ∃ message, papersOf env entries = .error (.connector message)) := by
  induction entries with
  | nil => exact Or.inl ⟨by simp, rfl⟩
  | cons entry entries ih =>
    unfold papersOf
    by_cases hid : entry.id.strip = []
    · rw [if_pos hid]
      have hnone : arxivId entry.id.strip = [] := by
        rw [hid]
        rfl
      exact Or.inr ⟨⟨entry, List.mem_cons_self .., hnone⟩, _, rfl⟩
    · by_cases harxiv : arxivId entry.id.strip = []
      · rw [if_neg hid, if_pos harxiv]
        exact Or.inr ⟨⟨entry, List.mem_cons_self .., harxiv⟩, _, rfl⟩
      · rw [if_neg hid, if_neg harxiv]
        rcases ih with ⟨hall, heq⟩ | ⟨⟨e, he, hnone⟩, message, heq⟩
        · rw [heq]
          exact Or.inl ⟨List.forall_mem_cons.mpr ⟨harxiv, hall⟩, rfl⟩
        · rw [heq]
          exact Or.inr ⟨⟨e, List.mem_cons_of_mem _ he, hnone⟩, message, rfl⟩

lemma apiFact_admissible_iff {predicate field value : Str} {confidence : ℚ}
    (hpredicate : Str.strip predicate ≠ []) :
    (apiFact now author sourceUri predicate field value confidence).Admissible ↔
      ¬ value.Blank := by
  have hvalue : value.strip ≠ [] ↔ ¬ value.Blank := not_congr Str.strip_eq_nil_iff
  simp [Payload.Admissible, apiFact, hpredicate, hvalue]

/-- No co-author has the empty name. -/
lemma ne_nil_of_mem_coauthorsOf {ucd : Ucd} {name : Str}
    (h : name ∈ coauthorsOf ucd author (entries.map (paper env))) : name ≠ [] := by
  rw [coauthorsOf, mem_sortedSet, List.mem_filter] at h
  obtain ⟨p, hp, hname⟩ := List.mem_flatMap.mp h.1
  obtain ⟨entry, -, rfl⟩ := List.mem_map.mp hp
  simpa using (List.mem_filter.mp hname).2

/-- The facts are admissible unless the co-authors are reported as a blank text. -/
lemma paperFacts_admissible_iff :
    (∀ p ∈ paperFacts env.ucd now author sourceUri (entries.map (paper env)), p.Admissible) ↔
      ¬ BlankCoauthors (coauthorsOf env.ucd author (entries.map (paper env))) := by
  have hnamed : ∀ name ∈ coauthorsOf env.ucd author (entries.map (paper env)), name ≠ [] :=
    fun name hname => ne_nil_of_mem_coauthorsOf hname
  unfold paperFacts BlankCoauthors
  generalize coauthorsOf env.ucd author (entries.map (paper env)) = coauthors at hnamed
  simp only [List.forall_mem_cons, List.not_mem_nil, false_imp_iff, implies_true, and_true]
  rw [apiFact_admissible_iff (by decide), apiFact_admissible_iff (by decide),
    apiFact_admissible_iff (by decide)]
  have hreported : ¬ Str.Blank (if List.intercalate [','] coauthors = [] then
      "[No coauthors found]".toList else List.intercalate [','] coauthors) ↔
      ¬ ∃ name, coauthors = [name] ∧ name.Blank := by
    match coauthors, hnamed with
    | [], _ =>
      have hplaceholder : ¬ Str.Blank "[No coauthors found]".toList := by
        rw [← Str.strip_eq_nil_iff]
        decide
      simpa using hplaceholder
    | [name], hnamed =>
      have hname : name ≠ [] := hnamed name (List.mem_cons_self ..)
      simp [hname]
    | name :: other :: rest, _ =>
      have hjoined : ¬ Str.Blank (List.intercalate [','] (name :: other :: rest)) := by
        rw [not_blank_joined_iff]
        exact Or.inr (by simp)
      have hne : List.intercalate [','] (name :: other :: rest) ≠ [] := by
        intro hnil
        rw [hnil] at hjoined
        exact hjoined fun c hc => by cases hc
      rw [if_neg hne]
      simpa using hjoined
  exact ⟨fun h => hreported.mp h.2.2,
    fun h => ⟨not_blank_dumps_int _, not_blank_dumps_int _, hreported.mpr h⟩⟩

/-- What is reported of a page is admissible, whatever its text. -/
lemma pageObservation_admissible {url identityConfidence : Str} {page : ℕ} {text : Option Str} :
    (pageObservation now author url identityConfidence page text).Admissible := by
  have hpredicate : Str.strip "arxiv_pdf_page_text".toList ≠ [] := by decide
  refine ⟨hpredicate, ?_, rfl⟩
  show Str.strip (if boundedPageText text = [] then noPageText else boundedPageText text) ≠ []
  split_ifs with hempty
  · decide
  · rw [ne_eq, Str.strip_eq_nil_iff]
    exact fun h => hempty (Str.blank_take_strip_iff.mp h)

lemma validateCollected_collectedPapers_iff (huri : ¬ sourceUri.Blank) :
    validateCollected (collectedPapers hash sourceUri facts papers) = true ↔
      ∀ p ∈ facts, p.Admissible := by
  have hsource : Str.strip "arxiv".toList ≠ [] := by decide
  have huri : sourceUri.strip ≠ [] := mt Str.strip_eq_nil_iff.mp huri
  rw [validateCollected_iff]
  exact ⟨fun h => h.2, fun h => ⟨⟨hsource, huri⟩, h⟩⟩

lemma validateCollected_collectedPdf_iff :
    validateCollected (collectedPdf env hash now author facts top content) = true ↔
      ∀ p ∈ facts, p.Admissible := by
  have hsource : Str.strip "arxiv".toList ≠ [] := by decide
  have huri : Str.strip (pdfUrl top) ≠ [] := by
    rw [ne_eq, Str.strip_eq_nil_iff]
    exact fun h => absurd (h 'h' (List.mem_cons_self ..)) (by decide)
  have hpages : ∀ p ∈ extractPdfPageObservations env now author (pdfUrl top)
      (identityConfidence env.ucd author top) content, p.Admissible := by
    unfold extractPdfPageObservations
    cases env.readPdf content with
    | none => simp
    | some reader =>
      intro p hp
      obtain ⟨i, hi, rfl⟩ := List.mem_mapIdx.mp hp
      exact pageObservation_admissible
  rw [validateCollected_iff]
  constructor
  · exact fun h p hp => h.2 p (List.mem_append_left _ hp)
  · exact fun h => ⟨⟨hsource, huri⟩, List.forall_mem_append.mpr ⟨h, hpages⟩⟩

/-- At depth `deep`, a result is there and accepted exactly if the facts are admissible and the
answer for the first of the papers that are cited most is tolerated. -/
lemma collectDeep_accepted_iff (huri : ¬ sourceUri.Blank) :
    (∃ collected, collectDeep env hash now author sourceUri facts papers pdf = .ok collected ∧
      validateCollected collected = true) ↔
    (∀ p ∈ facts, p.Admissible) ∧
      ∀ top, (byCitations papers).head? = some top → Tolerated env (pdf (pdfUrl top)) := by
  unfold collectDeep
  cases byCitations papers with
  | nil =>
    constructor
    · rintro ⟨_, heq, hvalid⟩
      cases heq
      exact ⟨(validateCollected_collectedPapers_iff huri).mp hvalid, fun top h => by cases h⟩
    · exact fun h => ⟨_, rfl, (validateCollected_collectedPapers_iff huri).mpr h.1⟩
  | cons top rest =>
    simp only [List.head?_cons, Option.some.injEq, forall_eq']
    rcases fetchPdf_cases env (pdf (pdfUrl top)) with
      ⟨htolerated, hfetch⟩ | ⟨htolerated, content, hfetch, -⟩ | ⟨hrejected, message, hfetch⟩
    · rw [hfetch]
      constructor
      · rintro ⟨_, heq, hvalid⟩
        cases heq
        exact ⟨(validateCollected_collectedPapers_iff huri).mp hvalid, htolerated⟩
      · exact fun h => ⟨_, rfl, (validateCollected_collectedPapers_iff huri).mpr h.1⟩
    · rw [hfetch]
      constructor
      · rintro ⟨_, heq, hvalid⟩
        cases heq
        exact ⟨validateCollected_collectedPdf_iff.mp hvalid, htolerated⟩
      · exact fun h => ⟨_, rfl, validateCollected_collectedPdf_iff.mpr h.1⟩
    · rw [hfetch]
      constructor
      · rintro ⟨_, heq, -⟩
        cases heq
      · exact fun h => absurd h.2 hrejected

/-- **The connector of arXiv.** A collection succeeds and is accepted exactly if the author's papers
have ids, their only co-author is not one without a visible name, and, at depth `deep`, the answer
for the first of the papers that are cited most is tolerated.

**Proof sketch.** The counts are numerals, two names are joined with a comma, and the text of a page
is stripped or replaced. A PDF that is rejected is the only other failure. -/
theorem arxivCollect_accepted_iff {reply : AuthorReply} {depth : Depth}
    (huri : ¬ sourceUri.Blank) :
    (∃ collected, arxivCollect env hash now author sourceUri reply pdf depth = .ok collected ∧
      validateCollected collected = true) ↔
    ∃ entries, reply = .response 200 (.ok entries) ∧
      (∀ entry ∈ entries, arxivId entry.id.strip ≠ []) ∧
      ¬ BlankCoauthors (coauthorsOf env.ucd author (entries.map (paper env))) ∧
      (depth = .deep → ∀ top, (byCitations (entries.map (paper env))).head? = some top →
        Tolerated env (pdf (pdfUrl top))) := by
  unfold arxivCollect
  cases reply with
  | raised => simp
  | response status feed =>
    dsimp only
    by_cases hstatus : status = 200
    · subst hstatus
      rw [if_neg (not_not.mpr rfl)]
      cases feed with
      | error message => simp
      | ok entries =>
        dsimp only
        simp only [AuthorReply.response.injEq, Except.ok.injEq, true_and, exists_eq_left']
        rcases papersOf_cases env entries with ⟨hall, hpapers⟩ | ⟨⟨entry, he, hnone⟩, message, heq⟩
        · rw [hpapers, ← @paperFacts_admissible_iff env now author sourceUri]
          cases depth with
          | light =>
            constructor
            · rintro ⟨_, heq, hvalid⟩
              cases heq
              exact ⟨hall, (validateCollected_collectedPapers_iff huri).mp hvalid,
                fun h => by cases h⟩
            · exact fun h =>
                ⟨_, rfl, (validateCollected_collectedPapers_iff huri).mpr h.2.1⟩
          | deep =>
            refine (collectDeep_accepted_iff huri).trans ?_
            exact ⟨fun h => ⟨hall, h.1, fun _ => h.2⟩, fun h => ⟨h.2.1, h.2.2 rfl⟩⟩
        · rw [heq]
          constructor
          · rintro ⟨_, heq, -⟩
            cases heq
          · exact fun h => absurd hnone (h.1 entry he)
    · rw [if_pos hstatus]
      constructor
      · rintro ⟨_, heq, -⟩
        cases heq
      · rintro ⟨entries, heq, -⟩
        cases heq
        exact absurd rfl hstatus

/-- A library that reads every PDF as one of two pages, the second without a text. -/
private def twoPages : ArxivCollectEnv where
  ucd := Ucd.ascii
  classify _ := (.permanent, false)
  citations _ := 3
  isDigit := Char.isDigit
  decimal c := c.toNat - 48
  readPdf content :=
    if pdfMagic.isPrefixOf content then some ⟨false, [some "A method", some " "]⟩ else none

/-- A paper without co-authors. -/
private def adasPaper : FeedEntry where
  id := "http://arxiv.org/abs/1"
  authors := ["Ada"]

/-- The answer for an author with one paper. -/
private def onePaper : AuthorReply := .response 200 (.ok [adasPaper])

/-- The answer to the request of every PDF, in two chunks. -/
private def twoChunks (_ : Str) : PdfReply :=
  .response 200 "application/pdf" "8" [pdfMagic, [1, 2, 3]] false

private lemma tolerated_twoChunks (url : Str) : Tolerated twoPages (twoChunks url) := by
  refine ⟨rfl, by decide, fun declared hdeclared => ?_⟩
  have height : declaredPdfLength twoPages "8" = some (some 8) := by decide
  rw [height] at hdeclared
  cases hdeclared
  have hreadable : ReadablePdf twoPages [pdfMagic, [1, 2, 3]].flatten :=
    ⟨by decide, ⟨false, [some "A method", some " "]⟩, rfl, rfl, by decide, by decide⟩
  exact ⟨by decide, by decide, fun _ => hreadable⟩

/-- The collection for the author succeeds, and is accepted. -/
theorem arxivCollect_accepted_iff_onePaper : ∃ collected,
    arxivCollect twoPages (fun _ => []) 0 "Ada" "https://export.arxiv.org/api/query" onePaper
      twoChunks .deep = .ok collected ∧ validateCollected collected = true := by
  have huri : ¬ Str.Blank "https://export.arxiv.org/api/query".toList := by
    rw [← Str.strip_eq_nil_iff]
    decide
  refine (arxivCollect_accepted_iff huri).mpr ⟨_, rfl, by decide, ?_, fun _ top _ =>
    tolerated_twoChunks (pdfUrl top)⟩
  rintro ⟨name, hname, -⟩
  have hnone : coauthorsOf twoPages.ucd "Ada" ([adasPaper].map (paper twoPages)) = [] := by decide
  rw [hnone] at hname
  cases hname

/-! ## Evidence -/

/-- The predicate of the text of a page. -/
def Payload.IsPage (p : Payload) : Prop := p.predicate = "arxiv_pdf_page_text"

instance : DecidablePred Payload.IsPage := fun p =>
  inferInstanceAs (Decidable (p.predicate = "arxiv_pdf_page_text"))

/-- A field of the locator. -/
def Payload.located (p : Payload) (key : Str) : Option Json := p.sourceLocator.bind (Json.get? key)

/-- What is reported of a page is its text up to the end that the locator names, whitespace around
the text aside; if there is none, the locator has a reason. -/
def ReportsPage (number : ℕ) (text : Option Str) (p : Payload) : Prop :=
  ∃ stop : ℕ, p.located "page" = some (.int number) ∧ p.located "char_end" = some (.int stop) ∧
    stop ≤ maxPageChars ∧
      if stop = 0 then
        p.objectValue = noPageText ∧ (text.getD []).Blank ∧ (p.located "reason").isSome = true
      else p.objectValue = (text.getD []).strip.take stop ∧ p.objectValue.length = stop

/-- The pages of a PDF are reported one by one. -/
structure PageEvidence (reader : PdfReader) (reported : List Payload) : Prop where
  covered : reported.length = reader.pages.length
  readsBack : ∀ (n : ℕ) (p : Payload), reported[n]? = some p →
    ∃ text, reader.pages[n]? = some text ∧ ReportsPage (n + 1) text p

/-- A paper that comes first is cited most. -/
lemma citations_le_of_head (h : (byCitations papers).head? = some top) :
    top ∈ papers ∧ ∀ p ∈ papers, p.citations ≤ top.citations := by
  obtain ⟨rest, hrest⟩ := List.head?_eq_some_iff.mp h
  have hmem : ∀ p, p ∈ byCitations papers ↔ p ∈ papers := fun p => Comparator.mem_sort
  have hsorted := (Comparator.consistent_descending
    fun paper : Paper => (paper.citations : ℚ)).pairwise_sort papers
  change (byCitations papers).Pairwise _ at hsorted
  rw [hrest] at hmem hsorted
  refine ⟨(hmem top).mp (List.mem_cons_self ..), fun p hp => ?_⟩
  rcases List.mem_cons.mp ((hmem p).mpr hp) with rfl | hp'
  · exact le_rfl
  · have hle : (p.citations : ℚ) - top.citations ≤ 0 := (List.pairwise_cons.mp hsorted).1 p hp'
    exact_mod_cast sub_nonpos.mp hle

lemma reportsPage_pageObservation (url confidence : Str) (number : ℕ) (text : Option Str) :
    ReportsPage number text (pageObservation now author url confidence number text) := by
  have hlength : (boundedPageText text).length ≤ maxPageChars := List.length_take_le _ _
  refine ⟨(boundedPageText text).length, rfl, rfl, hlength, ?_⟩
  by_cases hempty : boundedPageText text = []
  · have hblank : Str.strip (text.getD []) = [] := by
      have hmax : maxPageChars ≠ 0 := by decide
      exact (List.take_eq_nil_iff.mp hempty).resolve_left hmax
    rw [if_pos (by rw [hempty]; rfl)]
    refine ⟨if_pos hempty, Str.strip_eq_nil_iff.mp hblank, ?_⟩
    cases text with
    | none => rfl
    | some text =>
      have hreason : pageReason (some text) =
          ([("reason", .str "no_extractable_text")] : List (Str × Json)) := if_pos hblank
      show (Json.get? "reason" (pageLocator author url confidence number (some text))).isSome
      unfold pageLocator
      rw [hreason]
      rfl
  · have hne : (boundedPageText text).length ≠ 0 := mt List.length_eq_zero_iff.mp hempty
    have hvalue : (pageObservation now author url confidence number text).objectValue =
        boundedPageText text := if_neg hempty
    rw [if_neg hne, hvalue]
    refine ⟨?_, rfl⟩
    unfold boundedPageText
    rw [List.length_take, ← List.take_eq_take_min]

lemma not_isPage_of_mem_paperFacts {ucd : Ucd} {p : Payload}
    (hp : p ∈ paperFacts ucd now author sourceUri papers) : ¬ p.IsPage := by
  have hpredicates : (paperFacts ucd now author sourceUri papers).map Payload.predicate =
      (["arxiv_paper_count", "arxiv_total_citations", "arxiv_coauthors"] : List Str) := rfl
  have hmem : p.predicate ∈
      (["arxiv_paper_count", "arxiv_total_citations", "arxiv_coauthors"] : List Str) :=
    hpredicates ▸ List.mem_map_of_mem hp
  intro hpage
  rw [show p.predicate = _ from hpage] at hmem
  exact absurd hmem (by decide)

/-- The pages among what is stored of a PDF. -/
lemma pageEvidence_extract {reader : PdfReader} (hread : env.readPdf content = some reader)
    (hfew : reader.pages.length ≤ maxEvidencePages) (url confidence : Str) :
    PageEvidence reader (extractPdfPageObservations env now author url confidence content) := by
  unfold extractPdfPageObservations
  rw [hread]
  dsimp only
  rw [List.take_of_length_le hfew]
  refine ⟨List.length_mapIdx, fun n p hp => ?_⟩
  rw [List.getElem?_mapIdx] at hp
  obtain ⟨text, htext, rfl⟩ := Option.map_eq_some_iff.mp hp
  exact ⟨text, htext, reportsPage_pageObservation url confidence (n + 1) text⟩

/-- The pages among the observations of a result with a PDF. -/
lemma filter_isPage_collectedPdf :
    ((collectedPdf env hash now author (paperFacts env.ucd now author sourceUri papers) top
      content).observations.filter fun p => p.IsPage) =
    extractPdfPageObservations env now author (pdfUrl top) (identityConfidence env.ucd author top)
      content := by
  have hfacts : (paperFacts env.ucd now author sourceUri papers).filter (fun p => p.IsPage) = [] :=
    List.filter_eq_nil_iff.mpr fun p hp => by simpa using not_isPage_of_mem_paperFacts hp
  have hpages : (extractPdfPageObservations env now author (pdfUrl top)
      (identityConfidence env.ucd author top) content).filter (fun p => p.IsPage) =
      extractPdfPageObservations env now author (pdfUrl top)
        (identityConfidence env.ucd author top) content := by
    refine List.filter_eq_self.mpr fun p hp => ?_
    unfold extractPdfPageObservations at hp
    cases hread : env.readPdf content with
    | none =>
      rw [hread] at hp
      cases hp
    | some reader =>
      rw [hread] at hp
      obtain ⟨i, hi, rfl⟩ := List.mem_mapIdx.mp hp
      exact decide_eq_true rfl
  show ((paperFacts env.ucd now author sourceUri papers) ++ _).filter _ = _
  rw [List.filter_append, hfacts, List.nil_append, hpages]

/-- **Evidence from a PDF.** If a collection reports the text of a page, then it stores a paper of
the author that is cited most, as it was downloaded and within the limit, and every page of the
paper is reported and read back.

**Proof sketch.** The facts of the API are no pages. The PDF has at most twenty pages, so none of
them is left out. -/
theorem pageEvidence_of_collect {reply : AuthorReply}
    (h : arxivCollect env hash now author sourceUri reply pdf .deep = .ok collected)
    (hpage : ∃ p ∈ collected.observations, p.IsPage) :
    ∃ entries top content reader, reply = .response 200 (.ok entries) ∧
      top ∈ entries.map (paper env) ∧
      (∀ p ∈ entries.map (paper env), p.citations ≤ top.citations) ∧
      fetchPdf env (pdf (pdfUrl top)) = .ok content ∧ collected.contentHash = hash content ∧
      content.length ≤ maxPdfBytes ∧ env.readPdf content = some reader ∧
      PageEvidence reader (collected.observations.filter fun p => p.IsPage) := by
  obtain ⟨p, hp, hpage⟩ := hpage
  have hfacts : ∀ papers, ¬ p ∈ paperFacts env.ucd now author sourceUri papers :=
    fun papers hmem => not_isPage_of_mem_paperFacts hmem hpage
  unfold arxivCollect at h
  cases reply with
  | raised => cases h
  | response status feed =>
    dsimp only at h
    by_cases hstatus : status = 200
    · rw [if_neg (not_not.mpr hstatus)] at h
      cases feed with
      | error message => cases h
      | ok entries =>
        dsimp only at h
        rcases papersOf_cases env entries with ⟨-, hpapers⟩ | ⟨-, message, herror⟩
        · rw [hpapers] at h
          have h : collectDeep env hash now author sourceUri
              (paperFacts env.ucd now author sourceUri (entries.map (paper env)))
              (entries.map (paper env)) pdf = .ok collected := h
          unfold collectDeep at h
          cases hsorted : byCitations (entries.map (paper env)) with
          | nil =>
            rw [hsorted] at h
            cases h
            exact absurd hp (hfacts _)
          | cons top rest =>
            obtain ⟨htop, hmost⟩ := citations_le_of_head (by rw [hsorted]; rfl)
            rw [hsorted] at h
            dsimp only at h
            rcases fetchPdf_cases env (pdf (pdfUrl top)) with
              ⟨-, hfetch⟩ | ⟨-, content, hfetch, ⟨-, reader, hread, -, -, hfew⟩, hlength⟩ |
                ⟨-, message, hfetch⟩
            · rw [hfetch] at h
              cases h
              exact absurd hp (hfacts _)
            · rw [hfetch] at h
              cases h
              refine ⟨entries, top, content, reader, by rw [hstatus], htop, hmost, hfetch, rfl,
                hlength, hread, ?_⟩
              rw [filter_isPage_collectedPdf]
              exact pageEvidence_extract hread hfew _ _
            · rw [hfetch] at h
              cases h
        · rw [herror] at h
          cases h
    · rw [if_pos hstatus] at h
      cases h

/-- The result of the collection for the author with one paper. -/
private def adasResult : Collected :=
  collectedPdf twoPages (fun _ => []) 0 "Ada"
    (paperFacts twoPages.ucd 0 "Ada" "https://export.arxiv.org/api/query"
      ([adasPaper].map (paper twoPages))) (paper twoPages adasPaper) [pdfMagic, [1, 2, 3]].flatten

/-- The two pages of the paper are reported, the second with a reason. -/
theorem pageEvidence_of_collect_adasPaper :
    ∃ entries top content reader, onePaper = .response 200 (.ok entries) ∧
      top ∈ entries.map (paper twoPages) ∧
      (∀ p ∈ entries.map (paper twoPages), p.citations ≤ top.citations) ∧
      fetchPdf twoPages (twoChunks (pdfUrl top)) = .ok content ∧
      adasResult.contentHash = [] ∧ content.length ≤ maxPdfBytes ∧
      twoPages.readPdf content = some reader ∧
      PageEvidence reader (adasResult.observations.filter fun p => p.IsPage) :=
  have hcollect : arxivCollect twoPages (fun _ => []) 0 "Ada" "https://export.arxiv.org/api/query"
      onePaper twoChunks .deep = .ok adasResult := rfl
  pageEvidence_of_collect hcollect
    ⟨pageObservation 0 "Ada" (pdfUrl (paper twoPages adasPaper)) "0.8" 1 (some "A method"),
      List.mem_append_right _ (List.mem_cons_self ..), rfl⟩

end Accepted

end VCBrain
