import Scenara.Core.Sorting
import Scenara.Ocr.Model

/-!
# Compliance of a text

Model of `parse_words_input` and `OcrComplianceChecker.inspect` (`domains/ocr/compliance.py`).

* `search`: the loop `text.find(word, start)`; it is `none` when it takes more turns than its fuel.

The rules and words that `load_persistent_compliance_data` reads from a file are parameters of the
call.
-/

namespace Scenara.Ocr

open Scenara.Core
open Index (isSpace blank)

/-! ## Words -/

/-- `re.split(r"[,;\n\|，；\r]+", val)`: the characters that split. -/
def splits (c : Char) : Bool :=
  c = ',' || c = ';' || c = '\n' || c = '|' || c = '，' || c = '；' || c = '\r'

/-- `parse_words_input` of a text. -/
def parseWordsText (val : String) : List String :=
  (((val.toList.splitOnP splits).map fun token => strip (String.ofList token)).filter
    (· ≠ "")).eraseDups

/-- `parse_words_input` of a collection of texts. -/
def parseWordsInput (val : List String) : List String := (val.flatMap parseWordsText).eraseDups

/-! ## Rules and hits -/

/-- `str.lower`, and `str.casefold` character by character. Case folding ignores lower-casing. -/
structure Casing where
  lower : List Char → List Char
  fold : Char → List Char
  lower_eq_nil : ∀ text, lower text = [] ↔ text = []
  fold_lower : ∀ text, (lower text).flatMap fold = text.flatMap fold

/-- Two texts are equal ignoring case. -/
def Casing.Alike (casing : Casing) (a b : List Char) : Prop :=
  a.flatMap casing.fold = b.flatMap casing.fold

/-- A compiled pattern: the spans of its matches. -/
structure Pattern where
  finditer : List Char → List (Nat × Nat)
  within : ∀ text, ∀ span ∈ finditer text, span.1 ≤ span.2 ∧ span.2 ≤ text.length

/-- `ComplianceRule`. -/
structure ComplianceRule where
  ruleId : String
  ruleCategory : String
  severity : String
  keywords : List String
  legalReference : String
  suggestion : String
  compiledRegex : List Pattern

/-- What a hit is of. -/
inductive Source where
  | keyword (kw : String)
  | pattern
  deriving DecidableEq

/-- Where a rule hits, and by what. -/
structure Occurrence where
  rule : ComplianceRule
  source : Source
  start : Nat
  stop : Nat

/-- The two ends of what is hit. -/
def Occurrence.span (o : Occurrence) : Nat × Nat := (o.start, o.stop)

/-- `OcrComplianceHit`, made of an occurrence. -/
structure OcrComplianceHit where
  occurrence : Occurrence
  ruleId : String
  ruleCategory : String
  severity : String
  word : List Char
  start : Nat
  stop : Nat
  blockId : Option String
  legalReference : String
  suggestion : String

/-- `(hit.start, hit.end)`. -/
def OcrComplianceHit.span (hit : OcrComplianceHit) : Nat × Nat := (hit.start, hit.stop)

/-- `OcrComplianceReport`. -/
structure OcrComplianceReport where
  status : String
  riskScore : ℚ
  totalHits : Nat
  hits : List OcrComplianceHit
  summary : String

/-! ## Searching -/

/-- `hay.find(needle, start)`. -/
def find (needle hay : List Char) (start : Nat) : Option Nat :=
  (List.range (hay.length + 1)).find? fun i => start ≤ i && needle.isPrefixOf (hay.drop i)

/-- The places that `find` comes to, `start` going on by `step` from each. -/
def search (needle hay : List Char) (step : Nat) : Nat → Nat → Option (List Nat)
  | 0, _ => none
  | fuel + 1, start =>
    match find needle hay start with
    | none => some []
    | some idx => (search needle hay step fuel (idx + step)).map (idx :: ·)

/-- As many turns as there may be, if every one goes on. -/
def turns (hay : List Char) : Nat := hay.length + 2

/-- `text[start:stop]`. -/
def slice (text : List Char) (start stop : Nat) : List Char := (text.take stop).drop start

section Inspect

variable (casing : Casing)

/-- `whitelist_spans`. -/
def whitelistSpans (lowerText : List Char) (whitelist : List String) : List (Nat × Nat) :=
  whitelist.flatMap fun w =>
    let lowered := (strip (String.ofList (casing.lower w.toList))).toList
    if lowered = [] then []
    else ((search lowered lowerText 1 (turns lowerText) 0).getD []).map fun idx =>
      (idx, idx + lowered.length)

/-- `is_whitelisted`. -/
def isWhitelisted (spans : List (Nat × Nat)) (s e : Nat) : Bool :=
  spans.any fun span => span.1 ≤ s && e ≤ span.2

/-- `find_block_id`, from the blocks and the characters before them. -/
def findBlockId (startPos : Nat) : Nat → List OcrTextBlock → Option String
  | _, [] => none
  | accumulated, b :: bs =>
    if accumulated ≤ startPos ∧ startPos < accumulated + b.text.toList.length then some b.blockId
    else findBlockId startPos (accumulated + (b.text.toList.length + 1)) bs

/-- The places of a keyword; `none` if the loop never ends. -/
def keywordPlaces (lowerText : List Char) (kw : String) : Option (List Nat) :=
  search (casing.lower kw.toList) lowerText kw.toList.length (turns lowerText) 0

/-- What the keywords of a rule hit. -/
def keywordOccurrences (lowerText : List Char) (rule : ComplianceRule) : Option (List Occurrence) :=
  (rule.keywords.mapM fun kw => (keywordPlaces casing lowerText kw).map fun places =>
    places.map fun idx => (⟨rule, .keyword kw, idx, idx + kw.toList.length⟩ : Occurrence)).map
      List.flatten

/-- What the patterns of a rule hit. -/
def patternOccurrences (text : List Char) (rule : ComplianceRule) : List Occurrence :=
  rule.compiledRegex.flatMap fun pattern =>
    (pattern.finditer text).map fun span => ⟨rule, .pattern, span.1, span.2⟩

/-- What the rules hit, in the order of the code and before any exemption. -/
def occurrences (text : List Char) (rules : List ComplianceRule) : Option (List Occurrence) :=
  (rules.mapM fun rule => (keywordOccurrences casing (casing.lower text) rule).map fun hits =>
    hits ++ patternOccurrences text rule).map List.flatten

/-- What the whitelist does not exempt. -/
def counted (text : List Char) (whitelist : List String) (hits : List Occurrence) :
    List Occurrence :=
  hits.filter fun o =>
    !isWhitelisted (whitelistSpans casing (casing.lower text) whitelist) o.start o.stop

/-- The hit of an occurrence. -/
def toHit (text : List Char) (blocks : List OcrTextBlock) (o : Occurrence) : OcrComplianceHit where
  occurrence := o
  ruleId := o.rule.ruleId
  ruleCategory := o.rule.ruleCategory
  severity := o.rule.severity
  word := slice text o.start o.stop
  start := o.start
  stop := o.stop
  blockId := findBlockId o.start 0 blocks
  legalReference := o.rule.legalReference
  suggestion := o.rule.suggestion

/-- `sorted(hits, key=lambda h: (h.start, -len(h.word)))`. -/
def byStart (a b : OcrComplianceHit) : Prop :=
  a.start < b.start ∨ a.start = b.start ∧ b.word.length ≤ a.word.length
  deriving Decidable

/-- The hits whose spans are not among those seen. -/
def uniqueSpans : List (Nat × Nat) → List OcrComplianceHit → List OcrComplianceHit
  | _, [] => []
  | seen, hit :: hits =>
    if hit.span ∈ seen then uniqueSpans seen hits
    else hit :: uniqueSpans (hit.span :: seen) hits

/-- `unique_hits`. -/
def uniqueHits (hits : List OcrComplianceHit) : List OcrComplianceHit :=
  uniqueSpans [] (hits.insertionSort byStart)

/-- The rule of the words of one task. -/
def taskRule (words : List String) (severity : String) : ComplianceRule where
  ruleId := "custom_task_sensitive_words"
  ruleCategory := "自定义敏感词"
  severity := if severity = "block" ∨ severity = "suspect" ∨ severity = "info" then severity
    else "block"
  keywords := words
  legalReference := "单次任务自定义敏感词风控规范"
  suggestion := "命中用户自定义敏感词，请根据业务风控要求核实并处置。"
  compiledRegex := []

/-- What an inspection goes by. -/
structure Policy where
  baseRules : List ComplianceRule
  persistentRules : List ComplianceRule
  persistentWhitelist : List String
  customWords : List String
  whitelist : List String
  customSeverity : String

/-- `all_rules`. -/
def Policy.allRules (policy : Policy) : List ComplianceRule :=
  let words := parseWordsInput policy.customWords
  policy.baseRules ++ policy.persistentRules ++
    if words = [] then [] else [taskRule words policy.customSeverity]

/-- `all_whitelist`. -/
def Policy.allWhitelist (policy : Policy) : List String :=
  parseWordsInput (policy.persistentWhitelist ++ parseWordsInput policy.whitelist)

/-- The report of some hits; rounding to two digits changes none of these scores. -/
def reportOf (policy : Policy) (exempts : Bool) (hits : List OcrComplianceHit) :
    OcrComplianceReport :=
  let n := hits.length
  if hits = [] then
    ⟨"pass", 0, 0, [], "合规通过：未发现违规极限用语或安全风险内容" ++
      if exempts then "（已应用 " ++ toString policy.allWhitelist.length ++ " 项业务白名单豁免保护）" else ""⟩
  else if hits.any (·.severity = "block") then
    ⟨"block", min 1 (7 / 10 + n / 20), n, hits, "严重违规：发现 " ++
      toString (hits.countP (·.severity = "block")) ++ " 处违规内容，严禁直接对外发布"⟩
  else if hits.any (·.severity = "suspect") then
    ⟨"suspect", min (69 / 100) (3 / 10 + n / 20), n, hits,
      "疑似存疑：发现 " ++ toString n ++ " 处存疑内容，建议补充佐证或整改后发布"⟩
  else ⟨"pass", 1 / 10, n, hits, "提示关注：存在少量需留意的表述"⟩

/-- The hits of a text. -/
def found (policy : Policy) (text : String) (blocks : List OcrTextBlock) :
    Option (List OcrComplianceHit) :=
  (occurrences casing text.toList policy.allRules).map fun hits =>
    (counted casing text.toList policy.allWhitelist hits).map (toHit text.toList blocks)

/-- `OcrComplianceChecker.inspect`. -/
def inspect (policy : Policy) (text : String) (blocks : List OcrTextBlock) :
    Option OcrComplianceReport :=
  if blank text then some ⟨"pass", 0, 0, [], "未检测到违规或存疑内容"⟩
  else (found casing policy text blocks).map fun hits =>
    reportOf policy (whitelistSpans casing (casing.lower text.toList) policy.allWhitelist ≠ [])
      (uniqueHits hits)

end Inspect

end Scenara.Ocr
