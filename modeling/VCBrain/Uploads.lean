import VCBrain.Agents.InboundJob
import VCBrain.Foundation.Unicode

set_option relaxedAutoImplicit false
set_option autoImplicit false

/-!
# Uploaded pitch decks

A deck arrives in chunks, is written to a quarantine file up to a limit, scanned, and checked to be
a PDF with nothing behind its end and not too many pages. The job that reads the deck later checks
it again and takes the text of its pages up to a budget.

## Main definitions

* `streamToQuarantine`, `validatePdfBytes` — the reading of the chunks, and the checks of a PDF.
* `quarantinePitchUpload` — what is done with an upload before it is stored.
* `extractDeckPages` — the pages that the job reads from a stored deck.
* `ReadsBack` — the pages are the beginning of the text of the deck, each at its locator.

## Main results

* `readsBack_of_quarantined` — the job reads every deck that was let through.

## Design

The PDF library and the scanner are parameters. A page without text has the empty text. The
messages of a rejection are those of the response.
-/

namespace VCBrain

/-! ## What is outside -/

/-- A PDF as the library reads it: whether it is encrypted, and the text of each page. -/
structure PdfDocument where
  isEncrypted : Bool
  pages : List Str
deriving DecidableEq

/-- How a scan ends. -/
inductive ScanOutcome where
  | unavailable
  | finished (returncode : ℤ)
deriving DecidableEq

/-- What the check of an upload takes from outside. -/
structure UploadEnv where
  ucd : Ucd
  /-- `pypdf.PdfReader(…, strict=True)`; `none` if it raises. -/
  readPdf : List UInt8 → Option PdfDocument
  /-- The configured scanner on a file with this content. -/
  scanner : List UInt8 → ScanOutcome

/-- The settings of uploads. -/
structure UploadSettings where
  environment : Str
  uploadMaxBytes : ℕ
  uploadMaxPages : ℕ
  uploadMaxTextChars : ℕ
  uploadMalwareScanner : Str

/-! ## The checks -/

/-- `Path(filename).name`. -/
def pathName (filename : Str) : Str :=
  ((List.splitOn '/' filename).filter fun part => part ≠ [] ∧ part ≠ ".").getLast?.getD []

/-- `Path(filename).suffix`: from the last dot on, unless it begins or ends the name. -/
def pathSuffix (filename : Str) : Str :=
  let name := pathName filename
  let suffix := name.drop ((name.length - 1) - name.reverse.idxOf '.')
  if '.' ∈ name ∧ suffix.length < name.length ∧ 1 < suffix.length then suffix else []

/-- `ord(character) < 32 or ord(character) == 127`. -/
def isControlCharacter (c : Char) : Bool := c.toNat < 32 || c.toNat == 127

/-- `_validate_filename`. -/
def validateFilename (ucd : Ucd) (filename : Option Str) : Except Str Str :=
  let name := filename.getD []
  if name = [] ∨ 255 < name.length ∨ name.any isControlCharacter then
    .error "A safe PDF filename is required"
  else if pathName name ≠ name ∨ '/' ∈ name ∨ '\\' ∈ name then
    .error "Path components are not allowed in filenames"
  else if ucd.lower (pathSuffix name) ≠ ".pdf" then
    .error "Only PDF pitch decks are supported"
  else .ok name

/-- `b"%PDF-"`. -/
def pdfMagic : List UInt8 := [0x25, 0x50, 0x44, 0x46, 0x2D]

/-- `b"%%EOF"`. -/
def eofMarker : List UInt8 := [0x25, 0x25, 0x45, 0x4F, 0x46]

/-- What stands behind the last `%%EOF`. -/
def behindEof : List UInt8 → Option (List UInt8)
  | [] => none
  | b :: content => (behindEof content).or
      (if eofMarker.isPrefixOf (b :: content) then some ((b :: content).drop eofMarker.length)
      else none)

/-- A byte that `bytes.strip` removes. -/
def isSpaceByte (b : UInt8) : Bool := b == 32 || (9 ≤ b && b ≤ 13)

/-- `_validate_pdf_bytes`: the number of pages. -/
def validatePdfBytes (env : UploadEnv) (maxPages : ℕ) (content : List UInt8) : Except Str ℕ :=
  if ¬ pdfMagic.isPrefixOf content then .error "The upload is not a PDF"
  else if ∀ rest ∈ behindEof content, ∃ b ∈ rest, ¬ isSpaceByte b then
    .error "The upload contains trailing content"
  else
    match env.readPdf content with
    | none => .error "The PDF could not be parsed safely"
    | some pdf =>
      if pdf.isEncrypted then .error "Encrypted PDFs cannot be processed"
      else if pdf.pages.length < 1 then .error "The PDF must contain at least one page"
      else if maxPages < pdf.pages.length then
        .error ("The PDF exceeds the ".toList ++ Str.decimal maxPages ++ "-page limit".toList)
      else .ok pdf.pages.length

/-- `_stream_to_quarantine`: the quarantine file once the upload has been read to its end, which is
the first empty chunk. -/
def streamToQuarantine (maxBytes : ℕ) (written : List UInt8) :
    List (List UInt8) → Except Str (List UInt8)
  | [] => .ok written
  | chunk :: chunks =>
    if chunk = [] then .ok written
    else if maxBytes < written.length + chunk.length then
      .error ("The upload exceeds the ".toList ++ Str.decimal maxBytes ++ "-byte limit".toList)
    else streamToQuarantine maxBytes (written ++ chunk) chunks

/-- `_scan_quarantined_file`. -/
def scanQuarantinedFile (env : UploadEnv) (settings : UploadSettings) (content : List UInt8) :
    Except Str Unit :=
  if settings.uploadMalwareScanner.strip = [] then
    if env.ucd.lower settings.environment ∈ (["development", "test"] : List Str) then .ok ()
    else .error "Upload malware scanner is not configured"
  else
    match env.scanner content with
    | .unavailable => .error "Upload malware scan was unavailable"
    | .finished returncode =>
      if returncode ≠ 0 then .error "The upload did not pass malware scanning" else .ok ()

/-- The check of the type. -/
def validateContentType (contentType : Option Str) : Except Str Unit :=
  if contentType = none ∨ contentType = some "" ∨ contentType = some "application/pdf" ∨
      contentType = some "application/octet-stream" then .ok ()
  else .error "The upload MIME type is not supported"

/-- An upload: its name, its type and the chunks in which it is read. -/
structure UploadFile where
  filename : Option Str
  contentType : Option Str
  chunks : List (List UInt8)

/-- `quarantine_pitch_upload`. -/
def quarantinePitchUpload (env : UploadEnv) (settings : UploadSettings) (upload : UploadFile) :
    Except Str (List UInt8) := do
  let _ ← validateFilename env.ucd upload.filename
  validateContentType upload.contentType
  let content ← streamToQuarantine settings.uploadMaxBytes [] upload.chunks
  scanQuarantinedFile env settings content
  let _ ← validatePdfBytes env settings.uploadMaxPages content
  return content

/-- `extract_pdf_pages` on the content of a stored deck. -/
def extractDeckPages (env : UploadEnv) (settings : UploadSettings) (content : List UInt8) :
    Except Str (List (Str × Json)) := do
  let _ ← validatePdfBytes env settings.uploadMaxPages content
  return extractPages 1 settings.uploadMaxTextChars
    (((env.readPdf content).map PdfDocument.pages).getD [])

/-! ## From the upload to the evidence -/

/-- The bytes that are read of an upload. -/
def received (chunks : List (List UInt8)) : List UInt8 := (chunks.takeWhile (· ≠ [])).flatten

/-- The text of the pages of a deck that can be read, which is what the job is given. -/
def deckTexts (env : UploadEnv) (content : List UInt8) : Option (List Str) :=
  if pdfMagic.isPrefixOf content ∧ ∃ rest ∈ behindEof content, rest.all isSpaceByte then
    (env.readPdf content).bind fun pdf => if pdf.isEncrypted then none else some pdf.pages
  else none

/-- The pages are the beginning of the text of the deck, and each of them is the beginning of the
page that its locator names, up to the end that its locator names. -/
structure ReadsBack (texts : List Str) (budget : ℕ) (pages : List (Str × Json)) : Prop where
  text : (pages.map Prod.fst).flatten = texts.flatten.take budget
  located : ∀ n page, pages[n]? = some page → ∃ text, texts[n]? = some text ∧
    page = (text.take page.1.length, pdfLocator (n + 1) page.1.length)

section Reading

variable {env : UploadEnv} {settings : UploadSettings} {content : List UInt8}

/-- How an upload is cut into chunks does not matter: it is received within the limit, or rejected.

**Proof sketch.** Induction on the chunks. The file holds what was read before, within the limit,
so a chunk that does not fit makes the whole too long. -/
lemma streamToQuarantine_eq (maxBytes : ℕ) (chunks : List (List UInt8)) {written : List UInt8}
    (hwritten : written.length ≤ maxBytes) : streamToQuarantine maxBytes written chunks =
      if (written ++ received chunks).length ≤ maxBytes then .ok (written ++ received chunks)
      else .error ("The upload exceeds the ".toList ++ Str.decimal maxBytes ++
        "-byte limit".toList) := by
  induction chunks generalizing written with
  | nil => simp [streamToQuarantine, received, hwritten]
  | cons chunk chunks ih =>
    unfold streamToQuarantine
    by_cases hend : chunk = []
    · simp [hend, received, hwritten]
    · have hreceived : received (chunk :: chunks) = chunk ++ received chunks := by
        simp [received, hend]
      rw [if_neg hend, hreceived, ← List.append_assoc]
      by_cases hfits : maxBytes < written.length + chunk.length
      · have hlong : ¬ (written ++ chunk ++ received chunks).length ≤ maxBytes := by
          simp only [List.length_append]
          omega
        rw [if_pos hfits, if_neg hlong]
      · rw [if_neg hfits, ih (by rw [List.length_append]; omega)]

/-- The pages that are taken of a deck are read back from it. -/
lemma readsBack_extractPages (texts : List Str) (first budget : ℕ) :
    ((extractPages first budget texts).map Prod.fst).flatten = texts.flatten.take budget ∧
      ∀ n page, (extractPages first budget texts)[n]? = some page → ∃ text,
        texts[n]? = some text ∧
          page = (text.take page.1.length, pdfLocator (first + n) page.1.length) := by
  induction texts generalizing first budget with
  | nil => simp [extractPages]
  | cons text texts ih =>
    unfold extractPages
    split_ifs with hbudget
    · simp [hbudget]
    · obtain ⟨htext, hlocated⟩ := ih (first + 1) (budget - (text.take budget).length)
      constructor
      · have hrest : budget - (text.take budget).length = budget - text.length := by
          rw [List.length_take]
          omega
        rw [List.map_cons, List.flatten_cons, htext, hrest, List.flatten_cons, List.take_append]
      · intro n page hpage
        cases n with
        | zero =>
          obtain rfl := Option.some.inj hpage
          refine ⟨text, rfl, ?_⟩
          show (text.take budget, _) = (text.take (text.take budget).length, _)
          rw [List.length_take, List.take_eq_take_min]
          rfl
        | succ n =>
          obtain ⟨text', htext', heq⟩ := hlocated n page hpage
          refine ⟨text', htext', ?_⟩
          rwa [Nat.add_right_comm, Nat.add_assoc] at heq

lemma length_extractPages_le (texts : List Str) (first budget : ℕ) :
    (extractPages first budget texts).length ≤ texts.length := by
  induction texts generalizing first budget with
  | nil => simp [extractPages]
  | cons text texts ih =>
    unfold extractPages
    split_ifs
    · simp
    · simpa using ih (first + 1) _

/-- What is computed from a result that there is. -/
private lemma exists_of_bind_eq_ok {α β : Type} {x : Except Str α} {f : α → Except Str β} {b : β}
    (h : (x >>= f) = .ok b) : ∃ a, x = .ok a ∧ f a = .ok b := by
  cases x with
  | error message => cases h
  | ok a => exact ⟨a, rfl, h⟩

/-- The text of a deck is that of its pages, as the library reads them. -/
lemma exists_of_deckTexts {texts : List Str} (h : deckTexts env content = some texts) :
    ∃ pdf, env.readPdf content = some pdf ∧ pdf.pages = texts := by
  unfold deckTexts at h
  split_ifs at h
  obtain ⟨pdf, hread, hpages⟩ := Option.bind_eq_some_iff.mp h
  refine ⟨pdf, hread, ?_⟩
  split_ifs at hpages
  exact Option.some.inj hpages

/-- A deck is let through exactly if its text can be read and it has at least one page, and not too
many. -/
lemma validatePdfBytes_eq_ok_iff {maxPages pageCount : ℕ} :
    validatePdfBytes env maxPages content = .ok pageCount ↔ ∃ texts,
      deckTexts env content = some texts ∧ texts.length = pageCount ∧ 1 ≤ pageCount ∧
        pageCount ≤ maxPages := by
  unfold validatePdfBytes deckTexts
  by_cases hmagic : pdfMagic.isPrefixOf content = true
  · rw [if_neg (not_not.mpr hmagic)]
    by_cases htrailing : ∀ rest ∈ behindEof content, ∃ b ∈ rest, ¬ isSpaceByte b = true
    · have hnot : ¬ ∃ rest ∈ behindEof content, rest.all isSpaceByte = true := by
        rintro ⟨rest, hrest, hspace⟩
        obtain ⟨b, hb, hnot⟩ := htrailing rest hrest
        exact hnot (List.all_eq_true.mp hspace b hb)
      rw [if_pos htrailing, if_neg fun h => hnot h.2]
      exact iff_of_false (by simp) (by simp)
    · have hsome : ∃ rest ∈ behindEof content, rest.all isSpaceByte = true := by
        simpa using htrailing
      rw [if_neg htrailing, if_pos ⟨hmagic, hsome⟩]
      cases env.readPdf content with
      | none => exact iff_of_false (by simp) (by simp)
      | some pdf =>
        rw [Option.bind_some]
        dsimp only
        by_cases hencrypted : pdf.isEncrypted = true
        · rw [if_pos hencrypted, if_pos hencrypted]
          exact iff_of_false (by simp) (by simp)
        · rw [if_neg hencrypted, if_neg hencrypted]
          simp only [Option.some.injEq, exists_eq_left']
          split_ifs with hempty hmany
          · exact iff_of_false (by simp) (by omega)
          · exact iff_of_false (by simp) (by omega)
          · rw [Except.ok.injEq]
            omega
  · rw [if_pos hmagic, if_neg fun h => hmagic h.1]
    exact iff_of_false (by simp) (by simp)

/-- The pages of a stored deck are those of the job that is given its text. -/
lemma toOption_extractDeckPages : (extractDeckPages env settings content).toOption =
    extractPdfPages (deckTexts env content) settings.uploadMaxPages
      settings.uploadMaxTextChars := by
  unfold extractDeckPages
  cases htexts : deckTexts env content with
  | none =>
    cases hvalid : validatePdfBytes env settings.uploadMaxPages content with
    | error message => rfl
    | ok pageCount =>
      obtain ⟨texts, h, -⟩ := validatePdfBytes_eq_ok_iff.mp hvalid
      rw [htexts] at h
      cases h
  | some texts =>
    obtain ⟨pdf, hread, rfl⟩ := exists_of_deckTexts htexts
    unfold extractPdfPages
    dsimp only
    cases hvalid : validatePdfBytes env settings.uploadMaxPages content with
    | error message =>
      have hbounds : ¬ (1 ≤ pdf.pages.length ∧ pdf.pages.length ≤ settings.uploadMaxPages) := by
        intro hbounds
        rw [validatePdfBytes_eq_ok_iff.mpr ⟨pdf.pages, htexts, rfl, hbounds⟩] at hvalid
        cases hvalid
      split_ifs with hempty hmany
      · rfl
      · rfl
      · omega
    | ok pageCount =>
      obtain ⟨texts, h, rfl, hbounds⟩ := validatePdfBytes_eq_ok_iff.mp hvalid
      obtain rfl := Option.some.inj (htexts.symm.trans h)
      rw [if_neg (by omega), if_neg (by omega), hread]
      rfl

/-- **From the upload to the evidence.** An upload that was let through, in whichever chunks it
came, is stored as it was received and within the limit. A job under no smaller limit of pages reads
its pages, and they are read back from the deck: together they are the beginning of its text, and
each of them is found at its locator.

**Proof sketch.** The quarantine file is what was received. It was let through as the job lets it
through, so the job gets its pages. The pages are cut where the text budget ends. -/
theorem readsBack_of_quarantined {upload : UploadFile} {jobSettings : UploadSettings}
    (h : quarantinePitchUpload env settings upload = .ok content)
    (hpages : settings.uploadMaxPages ≤ jobSettings.uploadMaxPages) :
    content = received upload.chunks ∧ content.length ≤ settings.uploadMaxBytes ∧
      ∃ texts pages, deckTexts env content = some texts ∧
        extractDeckPages env jobSettings content = .ok pages ∧
          pages.length ≤ settings.uploadMaxPages ∧
            ReadsBack texts jobSettings.uploadMaxTextChars pages := by
  obtain ⟨_, -, h⟩ := exists_of_bind_eq_ok h
  obtain ⟨_, -, h⟩ := exists_of_bind_eq_ok h
  obtain ⟨written, hstream, h⟩ := exists_of_bind_eq_ok h
  obtain ⟨_, -, h⟩ := exists_of_bind_eq_ok h
  obtain ⟨pageCount, hvalid, h⟩ := exists_of_bind_eq_ok h
  obtain rfl := Except.ok.inj h
  rw [streamToQuarantine_eq settings.uploadMaxBytes upload.chunks (Nat.zero_le _)] at hstream
  split_ifs at hstream with hlength
  obtain rfl := Except.ok.inj hstream
  rw [List.nil_append] at hlength hvalid ⊢
  obtain ⟨texts, htexts, rfl, hsome, hmany⟩ := validatePdfBytes_eq_ok_iff.mp hvalid
  obtain ⟨pdf, hread, rfl⟩ := exists_of_deckTexts htexts
  obtain ⟨htext, hlocated⟩ := readsBack_extractPages pdf.pages 1 jobSettings.uploadMaxTextChars
  refine ⟨rfl, hlength, pdf.pages, extractPages 1 jobSettings.uploadMaxTextChars pdf.pages, htexts,
    ?_, (length_extractPages_le pdf.pages 1 _).trans hmany, ⟨htext, fun n page hpage => ?_⟩⟩
  · unfold extractDeckPages
    rw [validatePdfBytes_eq_ok_iff.mpr ⟨pdf.pages, htexts, rfl, hsome, hmany.trans hpages⟩, hread]
    rfl
  · obtain ⟨text, hmem, heq⟩ := hlocated n page hpage
    exact ⟨text, hmem, by rwa [Nat.add_comm] at heq⟩

end Reading

/-! ### A deck of two pages -/

/-- A library that finds two pages in every file. -/
private def twoPagesEnv : UploadEnv where
  ucd := Ucd.ascii
  readPdf _ := some ⟨false, ["ab", "cd"]⟩
  scanner _ := .unavailable

/-- Settings without a scanner, for three characters. -/
private def threeCharsSettings : UploadSettings where
  environment := "Test"
  uploadMaxBytes := 10
  uploadMaxPages := 2
  uploadMaxTextChars := 3
  uploadMalwareScanner := " "

/-- The deck arrives in two chunks. -/
private def twoChunksUpload : UploadFile where
  filename := some "deck.PDF"
  contentType := some "application/pdf"
  chunks := [pdfMagic, eofMarker, [], [0]]

/-- The first page is read back, and the beginning of the second. -/
theorem readsBack_of_quarantined_twoChunks :
    pdfMagic ++ eofMarker = received twoChunksUpload.chunks ∧
      (pdfMagic ++ eofMarker).length ≤ threeCharsSettings.uploadMaxBytes ∧
        ∃ texts pages, deckTexts twoPagesEnv (pdfMagic ++ eofMarker) = some texts ∧
          extractDeckPages twoPagesEnv threeCharsSettings (pdfMagic ++ eofMarker) = .ok pages ∧
            pages.length ≤ threeCharsSettings.uploadMaxPages ∧
              ReadsBack texts threeCharsSettings.uploadMaxTextChars pages :=
  have h : quarantinePitchUpload twoPagesEnv threeCharsSettings twoChunksUpload =
      .ok (pdfMagic ++ eofMarker) := by decide +kernel
  readsBack_of_quarantined h le_rfl

end VCBrain
