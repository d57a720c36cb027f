import Rulebook.Proofs.Compilation.Literal
import Rulebook.Proofs.Compilation.Simulation
import Rulebook.Proofs.Compilation.Termination

/-!
# The segments of a script

A script consists of what the compiler writes itself and of what it takes from outside: the document,
the names of rules, conditions and statements. `Configuration.segments` lists these segments, and
`cut_script` says that the pieces of the script are the pieces of its segments one after another, so
that nothing that comes from outside reaches into what the compiler writes.
-/

namespace Rulebook

open Surface Surface.Mode Compilation

namespace Compilation

/-- A segment of a script. -/
inductive Segment where
  /-- Code of the compiler. -/
  | own (text : List Char)
  /-- A comment of the compiler, up to the end of its line. -/
  | remark (words : List Char)
  /-- The literal of the document. -/
  | document (text : String)
  /-- The script form of a condition or of a statement. -/
  | embedded (text : List Char)

namespace Segment

/-- The characters of a segment. -/
def text : Segment → List Char
  | own text => text
  | remark words => '/' :: '/' :: words
  | document text => (literal text).toList
  | embedded text => text

/-- The pieces of a segment. -/
def pieces : Segment → List Piece
  | own text => cutFrom false text
  | remark words => [.comment ('/' :: '/' :: words)]
  | document text => [.literal (literal text).toList]
  | embedded text => cutFrom false text

@[simp] theorem text_own (s : List Char) : (own s).text = s := rfl

@[simp] theorem pieces_own (s : List Char) : (own s).pieces = cutFrom false s := rfl

end Segment

/-- The line break that `closeLine` adds to a code. -/
def lineEnd (code : List Char) : List Char := if hasSlashes (lastLine code) then ['\n'] else []

/-- What the compiler writes behind a statement. -/
def terminator (statement : List Char) : List Char :=
  if statement.getLast? = some ';' ∨ statement.getLast? = some '\x7d' then ['\n']
  else lineEnd statement ++ [';', '\n']

/-- The segments of a statement. -/
def statementSegments (depth : Nat) (statement : String) : List Segment :=
  let code := Text.trim (toScript statement).toList
  if code = [] then []
  else [.own (indentation depth).toList, .embedded code, .own (terminator code)]

/-- The segments of a rule. -/
def ruleSegments (index : Nat) (rule : Rule) : List Segment :=
  let condition := (toScript (String.ofList (Text.trim rule.condition.toList))).toList
  [.own (indentation 1).toList, .remark (' ' :: (rule.label index).toList),
    .own ('\n' :: (indentation 1).toList ++ "if truthy(".toList), .embedded condition,
    .own (lineEnd condition ++ ") \x7b\n".toList)] ++
  rule.body.flatMap (statementSegments 2) ++
  rule.actions.map (fun action => .own (invocation action).toList) ++
  [.own ((indentation 1).toList ++ "\x7d\n".toList)]

/-- The segments of the rules from the place `index` on. -/
def rulesSegments (index : Nat) : List Rule → List Segment
  | [] => []
  | rule :: rest => ruleSegments index rule ++ rulesSegments (index + 1) rest

/-- The segments of a group of statements outside the rules, under a title. -/
def groupSegments (title : String) (statements : List String) : List Segment :=
  if statements.isEmpty then []
  else [.own (indentation 1).toList, .remark (' ' :: title.toList), .own ['\n']] ++
    statements.flatMap (statementSegments 1)

/-- The first lines of every script, up to the document. -/
def head : String :=
  "fn " ++ entryPoint ++ "(input_json) \x7b\n" ++
  indentation 1 ++ "let input = ();\n" ++
  indentation 1 ++ "try \x7b input = json_parse(input_json); \x7d catch (err) " ++
    "\x7b return input_json; \x7d\n" ++
  indentation 1 ++ "let document = json_parse("

end Compilation

/-- The segments of the script of a configuration that starts from the given document. -/
def Configuration.segments (configuration : Configuration) (document : String) : List Segment :=
  [.own head.toList, .document document, .own ");\n".toList] ++
  groupSegments "pre-execution" configuration.before ++
  rulesSegments 0 configuration.rules ++
  groupSegments "post-execution" configuration.after ++
  [.own closing.toList]

namespace Compilation

/-! ### The text of the segments -/

theorem closeLine_eq (code : List Char) : closeLine code = code ++ lineEnd code := by
  unfold closeLine lineEnd
  split <;> simp

theorem text_statementSegments (depth : Nat) (statement : String) :
    (statementSegments depth statement).flatMap Segment.text =
      (closeStatement depth (toScript statement).toList).toList := by
  unfold statementSegments
  dsimp only
  split
  · rename_i hnil
    simp [closeStatement, hnil]
  · rename_i hne
    rw [toList_closeStatement hne, ended, terminator]
    split
    · simp [Segment.text]
    · simp [Segment.text, closeLine_eq]

theorem toList_join (texts : List String) :
    (String.join texts).toList = texts.flatMap String.toList := by
  induction texts with
  | nil => rfl
  | cons text rest ih => rw [String.join_cons, String.toList_append, ih, List.flatMap_cons]

theorem text_statements (depth : Nat) (statements : List String) :
    (statements.flatMap (statementSegments depth)).flatMap Segment.text =
      (statementsText depth statements).toList := by
  rw [statementsText, toList_join, List.flatMap_map, List.flatMap_assoc]
  simp only [text_statementSegments]

theorem text_ruleSegments (index : Nat) (rule : Rule) :
    (ruleSegments index rule).flatMap Segment.text = (ruleText index rule).toList := by
  have hactions : (rule.actions.map fun action =>
      Segment.own (invocation action).toList).flatMap Segment.text =
      (String.join (rule.actions.map invocation)).toList := by
    rw [toList_join, List.flatMap_map, List.flatMap_map]
    rfl
  have hslashes : "// ".toList = ['/', '/', ' '] := rfl
  have hbreak : "\n".toList = ['\n'] := rfl
  simp only [ruleSegments, ruleText, conditionText, List.flatMap_append, text_statements, hactions,
    List.flatMap_cons, List.flatMap_nil, Segment.text, String.toList_append, String.toList_ofList,
    closeLine_eq, hslashes, hbreak, List.append_assoc, List.cons_append, List.nil_append,
    List.append_nil]

theorem text_rulesSegments (index : Nat) (rules : List Rule) :
    (rulesSegments index rules).flatMap Segment.text = (rulesText index rules).toList := by
  induction rules generalizing index with
  | nil => rfl
  | cons rule rest ih =>
    rw [rulesSegments, List.flatMap_append, text_ruleSegments, ih, rulesText, String.toList_append]

theorem text_groupSegments (title : String) (statements : List String) :
    (groupSegments title statements).flatMap Segment.text =
      (groupText title statements).toList := by
  have hslashes : "// ".toList = ['/', '/', ' '] := rfl
  have hbreak : "\n".toList = ['\n'] := rfl
  unfold groupSegments groupText
  split
  · rfl
  · rw [List.flatMap_append, text_statements]
    simp only [List.flatMap_cons, List.flatMap_nil, Segment.text, String.toList_append, hslashes, hbreak, List.append_assoc, List.cons_append,
      List.nil_append]

/-- A script is the text of its segments. -/
theorem text_segments (configuration : Configuration) (document : String) :
    (configuration.segments document).flatMap Segment.text =
      (scriptText configuration document).toList := by
  have hopening : opening document = head ++ literal document ++ ");\n" := rfl
  simp only [Configuration.segments, scriptText, hopening, List.flatMap_append,
    text_groupSegments, text_rulesSegments, List.flatMap_cons, List.flatMap_nil, Segment.text,
    String.toList_append, List.append_assoc, List.append_nil]

/-! ### The pieces of the segments -/

/-- Whether segments can be cut one by one, in front of any text, and what the compiler writes itself
holds neither quotes nor slashes. -/
structure Apart (segments : List Segment) : Prop where
  whole : Whole (segments.flatMap Segment.text)
  cut : cutFrom false (segments.flatMap Segment.text) = segments.flatMap Segment.pieces
  sober : ∀ text, .own text ∈ segments → text.all isSober = true

theorem apart_nil : Apart [] := ⟨whole_nil, by simp [cutFrom], by simp⟩

theorem Apart.append {first second : List Segment} (h : Apart first) (h' : Apart second) :
    Apart (first ++ second) where
  whole := by
    rw [List.flatMap_append]
    exact h.whole.append h'.whole
  cut := by rw [List.flatMap_append, List.flatMap_append, h.whole, h.cut, h'.cut]
  sober text hmem := (List.mem_append.1 hmem).elim (h.sober text) (h'.sober text)

theorem apart_flatMap {α : Type} {items : List α} {f : α → List Segment}
    (h : ∀ item ∈ items, Apart (f item)) : Apart (items.flatMap f) := by
  induction items with
  | nil => exact apart_nil
  | cons item items ih =>
    rw [List.flatMap_cons]
    exact (h item (.head _)).append (ih fun i hi => h i (.tail _ hi))

/-- Whether the compiler may write a text: no quotes and no slashes, and a seam at its end. -/
def isOwn (text : List Char) : Bool :=
  text.all isSober && text.getLast?.all fun c => seams.contains c

theorem isOwn_iff {text : List Char} :
    isOwn text = true ↔ text.all isSober = true ∧ ∀ c ∈ text.getLast?, c ∈ seams := by
  rw [isOwn, Bool.and_eq_true, Option.all_eq_true]
  simp only [List.contains_iff_mem, Option.mem_def]

theorem isOwn_append {text more : List Char} (h : isOwn text = true) (h' : isOwn more = true) :
    isOwn (text ++ more) = true := by
  rw [isOwn_iff] at *
  constructor
  · rw [List.all_append, h.1, h'.1]
    rfl
  · intro c hc
    rw [Option.mem_def, List.getLast?_append, Option.or_eq_some_iff] at hc
    rcases hc with hc | ⟨-, hc⟩
    · exact h'.2 c hc
    · exact h.2 c hc

theorem apart_own {text : List Char} {rest : List Segment} (h : isOwn text = true)
    (hrest : Apart rest) : Apart (.own text :: rest) := by
  obtain ⟨hsober, hlast⟩ := isOwn_iff.1 h
  have hwhole := whole_of_sober hsober hlast
  have hown : Apart [.own text] := by
    refine ⟨?_, ?_, ?_⟩
    · simpa using hwhole
    · simp
    · intro other hmem
      cases List.mem_singleton.1 hmem
      exact hsober
  exact hown.append hrest

/-- Whether a segment that comes from outside may stand in front of a character: the scan of its text
is then back in code. -/
structure Fits (segment : Segment) (next : Char) : Prop where
  foreign : ∀ text, segment ≠ .own text
  pieces : cutFrom false segment.text = segment.pieces
  outside : (run .code segment.text).isOutside = true
  line : next = '\n' ∨ run .code segment.text ≠ .remark

/-- A segment that comes from outside in front of what the compiler writes. -/
theorem Fits.apart {segment : Segment} {next : Char} {after : List Char} {rest : List Segment}
    (h : Fits segment next) (hafter : isOwn (next :: after) = true) (hnext : next ∈ seams)
    (hrest : Apart rest) : Apart (segment :: .own (next :: after) :: rest) := by
  obtain ⟨hsober, hlast⟩ := isOwn_iff.1 hafter
  have hend : Whole after := by
    refine whole_of_sober (Bool.and_eq_true_iff.1 hsober).2 fun c hc => hlast c ?_
    cases after with
    | nil => cases hc
    | cons d after => rwa [List.getLast?_cons_cons]
  have hseam (tail : List Char) :=
    @cutFrom_append_seam next tail hnext segment.text h.outside h.line false
  have hpair : Apart [segment, .own (next :: after)] := by
    refine ⟨?_, ?_, ?_⟩
    · intro tail
      simp only [List.flatMap_cons, List.flatMap_nil, List.append_nil, Segment.text_own]
      rw [List.append_assoc, List.cons_append, hseam, hseam, hend, List.append_assoc,
        List.cons_append]
    · simp only [List.flatMap_cons, List.flatMap_nil, List.append_nil, Segment.text_own,
        Segment.pieces_own]
      rw [hseam, h.pieces, ← cutFrom_seam_cons hnext]
    · intro text hmem
      rcases List.mem_cons.1 hmem with rfl | hmem
      · exact absurd rfl (h.foreign text)
      · cases List.mem_singleton.1 hmem
        exact hsober
  exact hpair.append hrest

/-! ### What comes from outside -/

theorem fits_remark {words : List Char} (h : '\n' ∉ words) : Fits (.remark words) '\n' := by
  have hrun : run .code ('/' :: '/' :: words) = .remark := run_remark h
  have hline : words.all (· != '\n') = true := by
    rw [List.all_eq_true]
    intro c hc
    rw [bne_iff_ne]
    rintro rfl
    exact h hc
  refine ⟨by simp, ?_, ?_, .inl rfl⟩
  · show cutFrom false ('/' :: '/' :: words) = [.comment ('/' :: '/' :: words)]
    have hnext : next false '/' ('/' :: words) = (.comment ('/' :: '/' :: words), []) := by
      show (Piece.comment ('/' :: '/' :: words.takeWhile (· != '\n')),
        words.dropWhile (· != '\n')) = _
      rw [takeWhile_of_all hline, dropWhile_of_all hline]
    rw [cutFrom_cons, hnext, cutFrom]
  · show (run .code ('/' :: '/' :: words)).isOutside = true
    rw [hrun]
    rfl

theorem Spells.splitLiteral {written : List Char} {c : Char} (h : Spells written c)
    (more : List Char) : Surface.splitLiteral '"' (written ++ more) =
      (written ++ (Surface.splitLiteral '"' more).1, (Surface.splitLiteral '"' more).2) := by
  cases h with
  | itself plain =>
    obtain ⟨-, hquote, hbackslash⟩ := isSpecial_eq_false.1 plain
    rw [List.singleton_append, splitLiteral_cons _ hbackslash, if_neg hquote]
    rfl
  | code digits =>
    obtain ⟨_, _, _, _, h₁, h₂, h₃, h₄, -⟩ := hexWord?_eq_some digits
    simp [Surface.splitLiteral, splitLiteral_cons, hexDigit?_eq_some h₁, hexDigit?_eq_some h₂,
      hexDigit?_eq_some h₃, hexDigit?_eq_some h₄]
  | _ => rfl

/-- Read by the rules of rule texts, too, the literal of a text ends at its last character. -/
theorem Spelled.splitLiteral {inside text : List Char} (h : Spelled inside text) :
    Surface.splitLiteral '"' (inside ++ ['"']) = (inside ++ ['"'], []) := by
  induction h with
  | nil => rfl
  | @cons written inside c text first _ ih =>
    rw [List.append_assoc, first.splitLiteral, ih]

theorem Spelled.closesLiteral {inside text : List Char} (h : Spelled inside text) :
    Surface.closesLiteral '"' (inside ++ ['"']) = true := by
  induction h with
  | nil => rfl
  | @cons written inside c text first _ ih =>
    rw [List.append_assoc]
    cases first with
    | itself plain =>
      obtain ⟨-, -, hbackslash⟩ := isSpecial_eq_false.1 plain
      rw [List.singleton_append, closesLiteral_cons _ hbackslash, ih, Bool.or_true]
    | code digits =>
      obtain ⟨_, _, _, _, h₁, h₂, h₃, h₄, -⟩ := hexWord?_eq_some digits
      simp [Surface.closesLiteral, closesLiteral_cons, hexDigit?_eq_some h₁, hexDigit?_eq_some h₂,
        hexDigit?_eq_some h₃, hexDigit?_eq_some h₄, ih]
    | _ => exact ih

theorem fits_document (text : String) : Fits (.document text) ')' := by
  have hspelled := spelled_flatMap text.toList
  have hliteral := toList_literal text
  generalize text.toList.flatMap literalChar = inside at hspelled hliteral
  have hsplit := hspelled.splitLiteral
  have hcloses : closesLiteral '"' (Surface.splitLiteral '"' (inside ++ ['"'])).1 = true := by
    rw [hsplit]
    exact hspelled.closesLiteral
  have hcut : cutFrom false (literal text).toList = [.literal (literal text).toList] := by
    have hnext : next false '"' (inside ++ ['"']) = (.literal ('"' :: (inside ++ ['"'])), []) := by
      show (Piece.literal ('"' :: (Surface.splitLiteral '"' (inside ++ ['"'])).1),
        (Surface.splitLiteral '"' (inside ++ ['"'])).2) = _
      rw [hsplit]
    rw [hliteral, List.cons_append, cutFrom_cons, hnext, cutFrom]
  have hrun : run .code (literal text).toList = .code := by
    rcases run_splitLiteral '"' (inside ++ ['"']) with ⟨-, hrun⟩ | ⟨hopen, -⟩
    · rw [hsplit] at hrun
      rw [hliteral]
      exact hrun
    · rw [hcloses] at hopen
      cases hopen
  refine ⟨by simp, hcut, ?_, .inr ?_⟩
  · rw [Segment.text, hrun]
    rfl
  · rw [Segment.text, hrun]
    simp

/-- What comes from outside as code stands behind a line break if it ends in a line comment. -/
theorem fits_embedded {code : List Char} {next : Char} (h : (run .code code).isOutside = true)
    (hnext : next = '\n' ∨ hasSlashes (lastLine code) = false) : Fits (.embedded code) next := by
  refine ⟨by simp, rfl, h, hnext.imp_right fun hslashes hrun => ?_⟩
  have := hasSlashes_lastLine hrun
  rw [Segment.text, hslashes] at this
  cases this

theorem apart_embedded {code after : List Char} {next : Char} {rest : List Segment}
    (h : (run .code code).isOutside = true) (hafter : isOwn (next :: after) = true)
    (hnext : next ∈ seams) (hrest : Apart rest) :
    Apart (.embedded code :: .own (lineEnd code ++ next :: after) :: rest) := by
  unfold lineEnd
  split
  · have hbreak : isOwn ['\n'] = true := rfl
    exact (fits_embedded h (.inl rfl)).apart (isOwn_append hbreak hafter) (by decide) hrest
  · rename_i hslashes
    exact (fits_embedded h (.inr (Bool.eq_false_iff.2 hslashes))).apart hafter hnext hrest

/-! ### The segments of a script -/

theorem isOwn_indentation (depth : Nat) : isOwn (indentation depth).toList = true := by
  rw [indentation, String.toList_ofList, isOwn_iff]
  constructor
  · rw [List.all_eq_true]
    intro c hc
    rw [List.eq_of_mem_replicate hc]
    rfl
  · intro c hc
    rw [List.eq_of_mem_replicate (List.mem_of_getLast? hc)]
    decide

theorem isOwn_invocation {action : String} (h : isName action = true) :
    isOwn (invocation action).toList = true := by
  have hname : action.toList.all isSober = true := by
    rw [List.all_eq_true]
    intro c hc
    have hpart : (c.isAlphanum || c == '_') = true := by
      unfold isName at h
      split at h
      · rename_i heq
        rw [heq] at hc
        cases hc
      · rename_i d rest heq
        rw [heq] at hc
        rw [Bool.and_eq_true, List.all_eq_true] at h
        rcases List.mem_cons.1 hc with rfl | hc
        · rw [Char.isAlphanum]
          rcases Bool.or_eq_true_iff.1 h.1 with h | h <;> simp [h]
        · exact h.2 c hc
    have hplain := isPlain_of_class (p := fun c => c.isAlphanum || c == '_') hpart (by decide)
    simp only [isPlain, Bool.and_eq_true] at hplain
    exact hplain.1.1
  have hassign : isOwn "document = ".toList = true := rfl
  have hcall : isOwn (action.toList ++ "(document, input);\n".toList) = true := by
    have hend : isOwn "(document, input);\n".toList = true := rfl
    rw [isOwn_iff] at *
    constructor
    · rw [List.all_append, hname, hend.1]
      rfl
    · intro c hc
      rw [List.getLast?_append] at hc
      exact hend.2 c hc
  rw [invocation, String.toList_append, String.toList_append, String.toList_append,
    List.append_assoc]
  exact isOwn_append (isOwn_append (isOwn_indentation 2) hassign) hcall

theorem isOwn_head : isOwn head.toList = true := by
  have hname : isOwn (entryPoint ++ "(input_json) \x7b\n").toList = true := rfl
  have hinput : isOwn "let input = ();\n".toList = true := rfl
  have htry : isOwn "try \x7b input = json_parse(input_json); \x7d catch (err) ".toList = true := rfl
  have hcatch : isOwn "\x7b return input_json; \x7d\n".toList = true := rfl
  have hlet : isOwn "let document = json_parse(".toList = true := rfl
  have hfn : isOwn "fn ".toList = true := rfl
  rw [String.toList_append] at hname
  simp only [head, String.toList_append, List.append_assoc]
  refine isOwn_append hfn ?_
  rw [← List.append_assoc]
  exact isOwn_append hname (isOwn_append (isOwn_indentation 1) (isOwn_append hinput
    (isOwn_append (isOwn_indentation 1) (isOwn_append htry (isOwn_append hcatch
      (isOwn_append (isOwn_indentation 1) hlet))))))

theorem isOwn_closing : isOwn closing.toList = true := by
  have hreturn : isOwn "return json_stringify(document);\n\x7d\n".toList = true := rfl
  rw [closing, String.toList_append]
  exact isOwn_append (isOwn_indentation 1) hreturn

theorem isOutside_toScript {text : String} (h : ∀ piece ∈ cut text, piece.closed = true) :
    (run .code (toScript text).toList).isOutside = true := by
  rw [run_toScript h]
  exact (closed_iff false text.toList).1 h

theorem apart_statement {statement : String} (h : ∀ piece ∈ cut statement, piece.closed = true)
    (depth : Nat) : Apart (statementSegments depth statement) := by
  have hcode := isOutside_trim (isOutside_toScript h)
  unfold statementSegments
  dsimp only
  split
  · exact apart_nil
  refine apart_own (isOwn_indentation depth) ?_
  unfold terminator
  split
  · exact (fits_embedded hcode (.inl rfl)).apart rfl (by decide) apart_nil
  · exact apart_embedded hcode rfl (by decide) apart_nil

theorem apart_rule {rule : Rule} (hcondition : ∀ piece ∈ cut rule.condition, piece.closed = true)
    (hbody : ∀ statement ∈ rule.body, ∀ piece ∈ cut statement, piece.closed = true)
    (hactions : ∀ action ∈ rule.actions, isName action = true) (index : Nat) :
    Apart (ruleSegments index rule) := by
  have hlabel : '\n' ∉ ' ' :: (rule.label index).toList := by
    simp [not_mem_label rule index]
  have hif : isOwn ('\n' :: (indentation 1).toList ++ "if truthy(".toList) = true := rfl
  have hend : isOwn ((indentation 1).toList ++ "\x7d\n".toList) = true := rfl
  have htrimmed : (run .code (Text.trim rule.condition.toList)).isOutside = true :=
    isOutside_trim ((closed_iff false _).1 hcondition)
  have hcode : (run .code (toScript (String.ofList
      (Text.trim rule.condition.toList))).toList).isOutside = true := by
    refine isOutside_toScript ((closed_iff false _).2 ?_)
    rwa [String.toList_ofList]
  unfold ruleSegments
  refine ((Apart.append ?_ ?_).append ?_).append (apart_own hend apart_nil)
  · refine apart_own (isOwn_indentation 1) ?_
    refine (fits_remark hlabel).apart hif (by decide) ?_
    exact apart_embedded hcode rfl (by decide) apart_nil
  · exact apart_flatMap fun statement hs => apart_statement (hbody statement hs) 2
  · rw [List.map_eq_flatMap]
    exact apart_flatMap fun action ha => apart_own (isOwn_invocation (hactions action ha)) apart_nil

theorem apart_rules {rules : List Rule}
    (hclosed : ∀ rule ∈ rules, (∀ piece ∈ cut rule.condition, piece.closed = true) ∧
      ∀ statement ∈ rule.body, ∀ piece ∈ cut statement, piece.closed = true)
    (hactions : ∀ rule ∈ rules, ∀ action ∈ rule.actions, isName action = true) (index : Nat) :
    Apart (rulesSegments index rules) := by
  induction rules generalizing index with
  | nil => exact apart_nil
  | cons rule rest ih =>
    obtain ⟨hcondition, hbody⟩ := hclosed rule (.head _)
    exact (apart_rule hcondition hbody (hactions rule (.head _)) index).append
      (ih (fun r hr => hclosed r (.tail _ hr)) (fun r hr => hactions r (.tail _ hr)) _)

theorem apart_group {title : String} {statements : List String} (htitle : '\n' ∉ title.toList)
    (h : ∀ statement ∈ statements, ∀ piece ∈ cut statement, piece.closed = true) :
    Apart (groupSegments title statements) := by
  unfold groupSegments
  split
  · exact apart_nil
  · refine apart_own (isOwn_indentation 1) ?_
    refine Fits.apart (fits_remark (by simp [htitle])) rfl (by decide) ?_
    exact apart_flatMap fun statement hs => apart_statement (h statement hs) 1

end Compilation

/-- Whether every condition and every statement ends outside literals and block comments. -/
def Configuration.IsClosed (configuration : Configuration) : Prop :=
  (∀ statement ∈ configuration.before ++ configuration.after,
    ∀ piece ∈ cut statement, piece.closed = true) ∧
  ∀ rule ∈ configuration.rules, (∀ piece ∈ cut rule.condition, piece.closed = true) ∧
    ∀ statement ∈ rule.body, ∀ piece ∈ cut statement, piece.closed = true

namespace Compilation

theorem apart_segments {configuration : Configuration} (h : configuration.IsClosed)
    (hactions : ∀ rule ∈ configuration.rules, ∀ action ∈ rule.actions, isName action = true)
    (document : String) : Apart (configuration.segments document) := by
  obtain ⟨hstatements, hrules⟩ := h
  unfold Configuration.segments
  refine ((Apart.append (Apart.append (Apart.append ?_ ?_) ?_) ?_)).append
    (apart_own isOwn_closing apart_nil)
  · have hend : isOwn [')', ';', '\n'] = true := rfl
    exact apart_own isOwn_head ((fits_document document).apart hend (by decide) apart_nil)
  · exact apart_group (by decide) fun s hs => hstatements s (List.mem_append_left _ hs)
  · exact apart_rules hrules hactions 0
  · exact apart_group (by decide) fun s hs => hstatements s (List.mem_append_right _ hs)

theorem source_pieces (segment : Segment) :
    segment.pieces.flatMap Piece.source = segment.text := by
  cases segment with
  | own text => exact source_cutFrom false text
  | remark words => exact List.append_nil _
  | document text => exact List.append_nil _
  | embedded text => exact source_cutFrom false text

/-! ### Names and documents -/

/-- A piece that is no comment. -/
def isToken : Piece → Bool
  | .comment _ => false
  | _ => true

/-- The pieces of a segment that are no comments. -/
def Segment.tokens (segment : Segment) : List Piece := segment.pieces.filter isToken

end Compilation

/-- The rule without its name. -/
def Rule.unnamed (rule : Rule) : Rule := { rule with name := none }

/-- Whether two configurations have the same statements and, apart from their names, the same
rules. -/
def Configuration.SameButNames (first second : Configuration) : Prop :=
  first.before = second.before ∧ first.after = second.after ∧
    first.rules.map Rule.unnamed = second.rules.map Rule.unnamed

namespace Compilation

theorem tokens_segments (segments : List Segment) :
    (segments.flatMap Segment.pieces).filter isToken = segments.flatMap Segment.tokens := by
  rw [List.filter_flatMap]
  rfl

theorem tokens_ruleSegments {first second : Rule} (h : first.unnamed = second.unnamed)
    (index place : Nat) : (ruleSegments index first).flatMap Segment.tokens =
      (ruleSegments place second).flatMap Segment.tokens := by
  have hremark (words : List Char) : (Segment.remark words).tokens = [] := rfl
  obtain ⟨name, condition, body, actions⟩ := first
  obtain ⟨name', condition', body', actions'⟩ := second
  cases h
  simp only [ruleSegments, List.flatMap_append, List.flatMap_cons, hremark]

theorem tokens_rulesSegments {first second : List Rule}
    (h : first.map Rule.unnamed = second.map Rule.unnamed) (index place : Nat) :
    (rulesSegments index first).flatMap Segment.tokens =
      (rulesSegments place second).flatMap Segment.tokens := by
  induction first generalizing second index place with
  | nil =>
    cases second with
    | nil => rfl
    | cons rule rest => cases h
  | cons rule first ih =>
    cases second with
    | nil => cases h
    | cons other second =>
      obtain ⟨hrule, hrest⟩ := List.cons.inj h
      rw [rulesSegments, rulesSegments, List.flatMap_append, List.flatMap_append,
        tokens_ruleSegments hrule index place, ih hrest]

/-- The tokens of a script, of which only the literal depends on the document and none on the names of
the rules. -/
theorem exists_tokens {first second : Configuration} (h : first.SameButNames second)
    (document other : String) : ∃ front back,
      (first.segments document).flatMap Segment.tokens =
        front ++ .literal (literal document).toList :: back ∧
      (second.segments other).flatMap Segment.tokens =
        front ++ .literal (literal other).toList :: back := by
  obtain ⟨hbefore, hafter, hrules⟩ := h
  have hdocument (text : String) :
      (Segment.document text).tokens = [.literal (literal text).toList] := rfl
  simp only [Configuration.segments, List.flatMap_append, List.flatMap_cons, hdocument, hbefore,
    hafter, tokens_rulesSegments hrules 0 0, List.append_assoc, List.cons_append, List.nil_append]
  exact ⟨_, _, rfl, rfl⟩

/-! ### Action names -/

theorem forall_of_badAction?_eq_none {registered : String → Bool} {label : String}
    {actions : List String} (h : badAction? registered label actions = none) :
    ∀ action ∈ actions, isName action = true ∧ registered action = true := by
  induction actions with
  | nil => simp
  | cons action rest ih =>
    rw [badAction?] at h
    split at h
    · cases h
    split at h
    · cases h
    · rename_i hname hregistered
      refine List.forall_mem_cons.2 ⟨?_, ih h⟩
      simpa using And.intro hname hregistered

theorem forall_of_badReference?_eq_none {registered : String → Bool} {rules : List Rule}
    {index : Nat} (h : badReference? registered index rules = none) :
    ∀ rule ∈ rules, ∀ action ∈ rule.actions, isName action = true ∧ registered action = true := by
  induction rules generalizing index with
  | nil => simp
  | cons rule rest ih =>
    rw [badReference?, Option.or_eq_none_iff] at h
    exact List.forall_mem_cons.2 ⟨forall_of_badAction?_eq_none h.1, ih h.2⟩

/-- What compiles are the configurations that invoke registered actions by proper names. -/
theorem compileWithDocument_eq_ok_iff {configuration : Configuration} {document text : String}
    {registry : Registry} : compileWithDocument configuration document registry = .ok text ↔
      (∀ rule ∈ configuration.rules, ∀ action ∈ rule.actions,
        isName action = true ∧ registry.contains action = true) ∧
      scriptText configuration document = text := by
  unfold compileWithDocument
  cases h : badReference? registry.contains 0 configuration.rules with
  | some err =>
    constructor
    · intro hok
      cases hok
    · rintro ⟨hactions, -⟩
      rw [badReference?_eq_none hactions] at h
      cases h
  | none =>
    refine ⟨fun hok => ?_, fun ⟨_, hok⟩ => congrArg Except.ok hok⟩
    cases hok
    exact ⟨forall_of_badReference?_eq_none h, rfl⟩

/-- What holds of the rules of a configuration apart from their names holds of those of the other. -/
theorem forall_rules_of_sameButNames {first second : Configuration} (h : first.SameButNames second)
    {P : Rule → Prop} (hP : ∀ rule ∈ first.rules, P rule.unnamed) :
    ∀ rule ∈ second.rules, P rule.unnamed := by
  intro rule hrule
  have hmem : rule.unnamed ∈ first.rules.map Rule.unnamed := by
    rw [h.2.2]
    exact List.mem_map_of_mem hrule
  obtain ⟨partner, hpartner, heq⟩ := List.mem_map.1 hmem
  exact heq ▸ hP partner hpartner

/-- If conditions and statements end outside literals and block comments, the pieces of a script are
those of its segments: everything that the compiler writes as code is code, and names and documents
change nothing but comments and the content of one literal. -/
theorem cut_script {configuration : Configuration} {document script : String} {registry : Registry}
    (hclosed : configuration.IsClosed)
    (h : compileWithDocument configuration document registry = .ok script) :
    script.toList = (configuration.segments document).flatMap Segment.text ∧
    cut script = (configuration.segments document).flatMap Segment.pieces ∧
    (∀ segment ∈ configuration.segments document,
      segment.pieces.flatMap Piece.source = segment.text ∧
      ∀ text, segment = .own text → ∀ piece ∈ segment.pieces, piece.isCode = true) ∧
    ∀ other document', configuration.SameButNames other → ∃ script' front back,
      compileWithDocument other document' registry = .ok script' ∧
      (cut script).filter isToken = front ++ .literal (literal document).toList :: back ∧
      (cut script').filter isToken = front ++ .literal (literal document').toList :: back := by
  have hnames {c : Configuration} {d s : String}
      (hc : compileWithDocument c d registry = .ok s) : s = scriptText c d ∧
        ∀ rule ∈ c.rules, ∀ action ∈ rule.actions,
          isName action = true ∧ registry.contains action = true := by
    unfold compileWithDocument at hc
    split at hc
    · cases hc
    · rename_i hnone
      cases hc
      exact ⟨rfl, forall_of_badReference?_eq_none hnone⟩
  obtain ⟨rfl, hactions⟩ := hnames h
  -- the segments lie apart, so the script is cut segment by segment
  have hcut {c : Configuration} (d : String) (hc : c.IsClosed)
      (ha : ∀ rule ∈ c.rules, ∀ action ∈ rule.actions,
        isName action = true ∧ registry.contains action = true) :
      Apart (c.segments d) ∧ cut (scriptText c d) = (c.segments d).flatMap Segment.pieces := by
    have hapart := apart_segments hc (fun rule hr action ha' => (ha rule hr action ha').1) d
    refine ⟨hapart, ?_⟩
    rw [cut, ← text_segments, hapart.cut]
  obtain ⟨hapart, hpieces⟩ := hcut document hclosed hactions
  refine ⟨(text_segments configuration document).symm, hpieces, ?_, ?_⟩
  · intro segment hsegment
    refine ⟨source_pieces segment, ?_⟩
    rintro text rfl
    exact isCode_of_sober (hapart.sober text hsegment)
  · intro other document' hsame
    -- what the hypotheses ask of the configuration, the other one has, too
    have hactions' := forall_rules_of_sameButNames hsame (P := fun rule =>
      ∀ action ∈ rule.actions, isName action = true ∧ registry.contains action = true) hactions
    have hclosed' : other.IsClosed := by
      obtain ⟨hstatements, hrules⟩ := hclosed
      refine ⟨?_, forall_rules_of_sameButNames hsame (P := fun rule =>
        (∀ piece ∈ cut rule.condition, piece.closed = true) ∧
          ∀ statement ∈ rule.body, ∀ piece ∈ cut statement, piece.closed = true) hrules⟩
      rwa [hsame.1, hsame.2.1] at hstatements
    obtain ⟨-, hpieces'⟩ := hcut document' hclosed' hactions'
    obtain ⟨front, back, hfirst, hsecond⟩ := exists_tokens hsame document document'
    refine ⟨scriptText other document', front, back, ?_, ?_, ?_⟩
    · unfold compileWithDocument
      rw [badReference?_eq_none hactions']
    · rw [hpieces, tokens_segments, hfirst]
    · rw [hpieces', tokens_segments, hsecond]

/-- A rule whose name looks like code and whose condition ends in a comment. -/
def commentedRule : Rule where
  name := some "*/ \""
  condition := "true // always"
  body := ["document.b = 2"]
  actions := ["mark"]

/-- The name and the comment of this rule reach into nothing that the compiler writes. -/
theorem cut_script_of_commented_rule : ∃ (registry : Registry) (script : String),
    Configuration.IsClosed { rules := [commentedRule] } ∧
    compileWithDocument { rules := [commentedRule] } "{}" registry = .ok script ∧
    cut script =
      (Configuration.segments { rules := [commentedRule] } "{}").flatMap Segment.pieces := by
  let registry : Registry := ⟨[("mark", Action.set "mark" (.bool true))]⟩
  have hclosed : Configuration.IsClosed { rules := [commentedRule] } := by
    refine ⟨by simp, fun r hr => ?_⟩
    cases List.mem_singleton.1 hr
    refine ⟨(closed_iff false _).2 (by decide), fun statement hs => ?_⟩
    cases List.mem_singleton.1 hs
    exact (closed_iff false _).2 (by decide)
  have hcompile : compileWithDocument { rules := [commentedRule] } "{}" registry =
      .ok (scriptText { rules := [commentedRule] } "{}") := rfl
  exact ⟨registry, _, hclosed, hcompile, (cut_script hclosed hcompile).2.1⟩

end Compilation
end Rulebook
