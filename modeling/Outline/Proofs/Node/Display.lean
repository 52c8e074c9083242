import Outline.Format
import Outline.Proofs.Token.Display

/-! # Displays of trees

The display of a tree has one line for each node and for each title of a block. If no text has a line
feed, then indentation and titles tell the parts of each composite apart, so that the display
determines all that it shows.
-/
namespace Outline
set_option autoImplicit false

/-- What the display of a tree shows of each node. -/
inductive Shown where
  | terminal (display : String)
  | call (name : String) (span : Span) (parameters : List Shown)
  | statement (indent : Nat) (span : Span) (elements children : List Shown)

def Shown.fromNodes : Fold Shown where
  token t := .terminal t.display
  call c parameters := .call c.name.text c.span parameters
  statement s elements children := .statement s.indent s.span elements children

/-- No text of a token and no name of a call in a tree has a line feed. -/
def textsOnOneLine : Fold Bool where
  token t := !t.text.toList.contains '\n'
  call c parameters := !c.name.text.toList.contains '\n' && parameters.all id
  statement _ elements children := elements.all id && children.all id

namespace Display

/-- The line of a node, which no blank precedes and which has a bracket, unlike a title. -/
def begins (l : String) : Bool := l.toList.head? != some ' ' && l.toList.contains '['

theorem begins_header (k : Kind) (rest : String) : begins (k.name ++ "[" ++ rest) = true := by
  cases k <;> simp [begins, Kind.name]

theorem head?_of_mem_nest {lines : List String} : ∀ l ∈ nest lines, l.toList.head? = some ' ' := by
  intro l hl
  obtain ⟨m, -, rfl⟩ := List.mem_map.mp hl
  simp

theorem nest_eq_iff {lines lines' : List String} : nest lines = nest lines' ↔ lines = lines' :=
  List.map_inj_right fun _ _ h => (String.append_right_inj _).mp h

theorem begins_of_mem_block {title : String} (h : '[' ∉ title.toList) {parts : List (List String)} :
    ∀ l ∈ block title parts, begins l = false := by
  intro l hl
  unfold block at hl
  split at hl
  · cases hl
  rcases List.mem_cons.mp hl with rfl | hl
  · simp [begins, h]
  · simp [begins, head?_of_mem_nest l hl]

/-- A block of a composite as a list of none or one. -/
def titled (title : String) (parts : List (List String)) : List (List String) :=
  if parts.isEmpty then [] else [title :: nest parts.flatten]

theorem block_eq_flatten (title : String) (parts : List (List String)) :
    block title parts = (titled title parts).flatten := by
  unfold block titled
  split <;> simp

def opens (l : String) : Bool := l.toList.head? != some ' '

theorem isBlock_titled {title : String} (h : opens title = true) {parts : List (List String)} :
    ∀ b ∈ titled title parts, IsBlock opens b := by
  intro b hb
  unfold titled at hb
  split at hb
  · cases hb
  rw [List.mem_singleton] at hb
  subst hb
  refine ⟨h, ?_⟩
  intro l hl
  simp [opens, head?_of_mem_nest l hl]

theorem block_inj {title : String} {parts parts' : List (List String)}
    (h : block title parts = block title parts') : parts.flatten = parts'.flatten := by
  cases parts <;> cases parts' <;> simp_all [block, nest_eq_iff]

theorem titled_append_inj {title title' : String} (hTitles : title ≠ title')
    {first first' second second' : List (List String)}
    (h : titled title first ++ titled title' second = titled title first' ++ titled title' second') :
    first.flatten = first'.flatten ∧ second.flatten = second'.flatten := by
  cases first <;> cases first' <;> cases second <;> cases second' <;>
    simp_all [titled, nest_eq_iff, hTitles.symm]

theorem lines_token (t : Token) : (Node.token t).fold lines = [t.display] := by
  rw [Node.fold_token]
  rfl

theorem lines_call (c : Call) : (Node.call c).fold lines =
    (Kind.call.name ++ "[" ++ (c.name.text ++ "]@" ++ c.span.display)) ::
      block "PARAMETERS:" (c.parameters.map (·.fold lines)) := by
  rw [Node.fold_call, Call.fold_def]
  simp [lines, String.append_assoc]

theorem lines_statement (s : Statement) : (Node.statement s).fold lines =
    (Kind.statement.name ++ "[" ++ ("indent=" ++ toString s.indent ++ "]@" ++ s.span.display)) ::
      (block "ELEMENTS:" (s.elements.map (·.fold lines)) ++
        block "CHILDREN:" (s.children.map fun c => (Node.statement c).fold lines)) := by
  have hBracket : ∀ text : String, "[indent=" ++ text = "[" ++ ("indent=" ++ text) := by
    intro text
    rw [← String.append_assoc]
    rfl
  rw [Node.fold_statement, Statement.fold_def]
  simp [lines, hBracket, String.append_assoc]

theorem exists_header (n : Node) : ∃ rest more,
    n.fold lines = (n.kind.name ++ "[" ++ rest) :: more ∧ ∀ l ∈ more, begins l = false := by
  cases n with
  | token t =>
    obtain ⟨rest, hDisplay⟩ := t.exists_display_eq
    exact ⟨rest, [], by rw [lines_token, hDisplay, Node.kind], by simp⟩
  | call c =>
    exact ⟨_, _, lines_call c, begins_of_mem_block (by decide)⟩
  | statement s =>
    refine ⟨_, _, lines_statement s, List.forall_mem_append.mpr ⟨?_, ?_⟩⟩
    · exact begins_of_mem_block (by decide)
    · exact begins_of_mem_block (by decide)

theorem isBlock_lines (n : Node) : IsBlock begins (n.fold lines) := by
  obtain ⟨rest, more, hLines, hMore⟩ := exists_header n
  rw [hLines]
  exact ⟨begins_header _ _, hMore⟩

theorem kind_eq_of_lines_eq {n m : Node} (h : n.fold lines = m.fold lines) : n.kind = m.kind := by
  obtain ⟨rest, more, hLines, -⟩ := exists_header n
  obtain ⟨rest', more', hLines', -⟩ := exists_header m
  rw [hLines, hLines'] at h
  exact (Kind.eq_of_display_eq (List.cons.inj h).1).1

theorem kind_token_ne (t : Token) : t.kind ≠ .call ∧ t.kind ≠ .statement := by
  unfold Token.kind
  cases t.content <;> simp [Content.kind]

theorem map_lines_eq {nodes nodes' : List Node}
    (h : (nodes.map (·.fold lines)).flatten = (nodes'.map (·.fold lines)).flatten) :
    nodes.map (·.fold lines) = nodes'.map (·.fold lines) := by
  have hBlocks : ∀ nodes : List Node, ∀ b ∈ nodes.map (·.fold lines), IsBlock begins b := by
    intro nodes b hb
    obtain ⟨n, -, rfl⟩ := List.mem_map.mp hb
    exact isBlock_lines n
  exact eq_of_flatten_eq (hBlocks nodes) (hBlocks nodes') h

theorem map_shown_eq {nodes nodes' : List Node}
    (ih : ∀ n ∈ nodes, ∀ m : Node, n.fold lines = m.fold lines →
      n.fold Shown.fromNodes = m.fold Shown.fromNodes)
    (h : (nodes.map (·.fold lines)).flatten = (nodes'.map (·.fold lines)).flatten) :
    nodes.map (·.fold Shown.fromNodes) = nodes'.map (·.fold Shown.fromNodes) := by
  have hMap := map_lines_eq h
  clear h
  induction nodes generalizing nodes' with
  | nil => cases nodes' <;> simp_all
  | cons n nodes ihNodes =>
    cases nodes' with
    | nil => cases hMap
    | cons m nodes' =>
      obtain ⟨hFirst, hRest⟩ := List.cons.inj hMap
      obtain ⟨ihFirst, ihRest⟩ := List.forall_mem_cons.mp ih
      rw [List.map_cons, List.map_cons, ihFirst m hFirst, ihNodes ihRest hRest]

theorem blocks_inj {first first' second second' : List (List String)}
    (h : block "ELEMENTS:" first ++ block "CHILDREN:" second =
      block "ELEMENTS:" first' ++ block "CHILDREN:" second') :
    first.flatten = first'.flatten ∧ second.flatten = second'.flatten := by
  have hBlocks : ∀ first second : List (List String),
      ∀ b ∈ titled "ELEMENTS:" first ++ titled "CHILDREN:" second, IsBlock opens b := by
    intro first second
    exact List.forall_mem_append.mpr ⟨isBlock_titled (by decide), isBlock_titled (by decide)⟩
  simp only [block_eq_flatten, ← List.flatten_append] at h
  exact titled_append_inj (by decide) (eq_of_flatten_eq (hBlocks _ _) (hBlocks _ _) h)

end Display

open Display

theorem Shown.fromNodes_call (c : Call) : (Node.call c).fold Shown.fromNodes =
    .call c.name.text c.span (c.parameters.map (·.fold Shown.fromNodes)) := by
  rw [Node.fold_call, Call.fold_def]
  rfl

theorem Shown.fromNodes_statement (s : Statement) : (Node.statement s).fold Shown.fromNodes =
    .statement s.indent s.span (s.elements.map (·.fold Shown.fromNodes))
      (s.children.map fun c => (Node.statement c).fold Shown.fromNodes) := by
  rw [Node.fold_statement, Statement.fold_def]
  simp [Shown.fromNodes]

theorem bracket_not_mem_span (s : Span) : ']' ∉ '@' :: s.display.toList := by
  simp [Span.not_mem_display]

/-- A name may hold brackets, but behind the last one there is no more than a span. -/
theorem eq_of_header_eq {name name' : String} {span span' : Span}
    (h : name ++ "]@" ++ span.display = name' ++ "]@" ++ span'.display) :
    name = name' ∧ span = span' := by
  have hChars : name.toList ++ ']' :: '@' :: span.display.toList =
      name'.toList ++ ']' :: '@' :: span'.display.toList := by
    simpa using congrArg String.toList h
  obtain ⟨hName, hSpan⟩ := append_cons_inj_of_last (bracket_not_mem_span _)
    (bracket_not_mem_span _) hChars
  exact ⟨String.toList_inj.mp hName, Span.display_inj (String.toList_inj.mp (List.cons.inj hSpan).2)⟩

/-- The lines of a node determine all that they show. -/
theorem shown_eq_of_lines_eq (n : Node) : ∀ m : Node, n.fold lines = m.fold lines →
    n.fold Shown.fromNodes = m.fold Shown.fromNodes := by
  induction n using Node.inductAll with
  | token t =>
    intro m h
    have hKind := kind_eq_of_lines_eq h
    cases m with
    | token u =>
      rw [lines_token, lines_token] at h
      simp only [Node.fold_token, Shown.fromNodes, (List.cons.inj h).1]
    | call c => exact absurd hKind (kind_token_ne t).1
    | statement s => exact absurd hKind (kind_token_ne t).2
  | call c ih =>
    intro m h
    have hKind := kind_eq_of_lines_eq h
    cases m with
    | token u => exact absurd hKind.symm (kind_token_ne u).1
    | statement s => cases hKind
    | call d =>
      rw [lines_call, lines_call, List.cons.injEq] at h
      obtain ⟨hHeader, hBlock⟩ := h
      obtain ⟨hName, hSpan⟩ := eq_of_header_eq (Kind.eq_of_display_eq hHeader).2
      rw [Shown.fromNodes_call, Shown.fromNodes_call, hName, hSpan,
        map_shown_eq ih (block_inj hBlock)]
  | statement s ihElements ihChildren =>
    intro m h
    have hKind := kind_eq_of_lines_eq h
    cases m with
    | token u => exact absurd hKind.symm (kind_token_ne u).2
    | call d => cases hKind
    | statement t =>
      rw [lines_statement, lines_statement, List.cons.injEq] at h
      obtain ⟨hHeader, hBlocks⟩ := h
      obtain ⟨hIndent, hSpan⟩ := eq_of_header_eq (Kind.eq_of_display_eq hHeader).2
      obtain ⟨hElements, hChildren⟩ := blocks_inj hBlocks
      have ihNested : ∀ n ∈ s.children.map Node.statement, ∀ m : Node,
          n.fold lines = m.fold lines → n.fold Shown.fromNodes = m.fold Shown.fromNodes := by
        simpa using ihChildren
      have hLines : ((s.children.map Node.statement).map (·.fold lines)).flatten =
          ((t.children.map Node.statement).map (·.fold lines)).flatten := by
        simpa [Function.comp_def] using hChildren
      have hNested := map_shown_eq ihNested hLines
      have hNumber := Decimal.toDigits_inj (by simpa using congrArg String.toList hIndent)
      rw [Shown.fromNodes_statement, Shown.fromNodes_statement, hNumber, hSpan,
        map_shown_eq ihElements hElements]
      simpa [Function.comp_def] using hNested

theorem lineFeed_not_mem_block {title : String} (hTitle : '\n' ∉ title.toList)
    {parts : List (List String)} (h : ∀ part ∈ parts, ∀ l ∈ part, '\n' ∉ l.toList) :
    ∀ l ∈ block title parts, '\n' ∉ l.toList := by
  intro l hl
  unfold block at hl
  split at hl
  · cases hl
  rcases List.mem_cons.mp hl with rfl | hl
  · exact hTitle
  · obtain ⟨m, hm, rfl⟩ := List.mem_map.mp hl
    obtain ⟨part, hPart, hMem⟩ := List.mem_flatten.mp hm
    simp [h part hPart m hMem]

theorem lineFeed_not_mem_lines (n : Node) (h : n.fold textsOnOneLine = true) :
    ∀ l ∈ n.fold lines, '\n' ∉ l.toList := by
  have hSpan : ∀ s : Span, '\n' ∉ s.display.toList := Span.not_mem_display rfl (by decide)
  induction n using Node.inductAll with
  | token t =>
    have hText : '\n' ∉ t.text.toList := by simpa [textsOnOneLine] using h
    rw [lines_token]
    exact List.forall_mem_singleton.mpr (Token.lineFeed_not_mem_display hText)
  | call c ih =>
    rw [Node.fold_call, Call.fold_def] at h
    have hParts : '\n' ∉ c.name.text.toList ∧ ∀ n ∈ c.parameters, n.fold textsOnOneLine = true := by
      simpa [textsOnOneLine] using h
    rw [lines_call]
    refine List.forall_mem_cons.mpr ⟨?_, lineFeed_not_mem_block (by decide) ?_⟩
    · simp [Kind.name, hParts.1, hSpan]
    · exact List.forall_mem_map.mpr fun n hn => ih n hn (hParts.2 n hn)
  | statement s ihElements ihChildren =>
    rw [Node.fold_statement, Statement.fold_def] at h
    have hParts : (∀ n ∈ s.elements, n.fold textsOnOneLine = true) ∧
        ∀ c ∈ s.children, c.fold textsOnOneLine = true := by
      simpa [textsOnOneLine] using h
    rw [lines_statement]
    refine List.forall_mem_cons.mpr ⟨?_, List.forall_mem_append.mpr
      ⟨lineFeed_not_mem_block (by decide) ?_, lineFeed_not_mem_block (by decide) ?_⟩⟩
    · simp [Kind.name, lineFeed_not_mem_toDigits, hSpan]
    · exact List.forall_mem_map.mpr fun n hn => ihElements n hn (hParts.1 n hn)
    · refine List.forall_mem_map.mpr fun c hc => ihChildren c hc ?_
      rw [Node.fold_statement]
      exact hParts.2 c hc

theorem linesOf_renderForest {forest : List Statement} (hForest : forest ≠ [])
    (h : ∀ s ∈ forest, s.fold textsOnOneLine = true) :
    linesOf (Format.renderForest forest) =
      ((forest.map Node.statement).map (·.fold lines)).flatten := by
  have hStatement : ∀ s ∈ forest, linesOf s.display = (Node.statement s).fold lines := by
    intro s hs
    rw [Statement.display, ← Node.fold_statement]
    apply linesOf_intercalate_of_lines
    · rw [lines_statement]
      simp
    · apply lineFeed_not_mem_lines
      rw [Node.fold_statement]
      exact h s hs
  rw [Format.renderForest, linesOf_intercalate (by simpa using hForest), List.flatMap_def,
    List.map_map, List.map_map]
  exact congrArg _ (List.map_congr_left hStatement)

theorem renderForest_ne_empty {forest : List Statement} (hForest : forest ≠ [])
    (h : ∀ s ∈ forest, s.fold textsOnOneLine = true) : Format.renderForest forest ≠ "" := by
  intro hEmpty
  have hLines := linesOf_renderForest hForest h
  obtain ⟨s, rest, rfl⟩ := List.exists_cons_of_ne_nil hForest
  rw [hEmpty, List.map_cons, List.map_cons, List.flatten_cons, lines_statement] at hLines
  have hFirst := (List.cons.inj hLines).1
  have hChars := congrArg String.toList hFirst
  simp [Kind.name] at hChars

/-- The display of a forest determines all that it shows, if no text holds a line feed. -/
theorem shown_eq_of_renderForest_eq (forest other : List Statement)
    (h : ∀ s ∈ forest, s.fold textsOnOneLine = true)
    (hOther : ∀ s ∈ other, s.fold textsOnOneLine = true)
    (hEqual : Format.renderForest forest = Format.renderForest other) :
    forest.map (·.fold Shown.fromNodes) = other.map (·.fold Shown.fromNodes) := by
  by_cases hForest : forest = []
  · subst hForest
    by_cases hNone : other = []
    · rw [hNone]
    · exact absurd hEqual.symm (renderForest_ne_empty hNone hOther)
  by_cases hNone : other = []
  · subst hNone
    exact absurd hEqual (renderForest_ne_empty hForest h)
  have hLines := congrArg linesOf hEqual
  rw [linesOf_renderForest hForest h, linesOf_renderForest hNone hOther] at hLines
  have hShown := map_shown_eq (fun n _ => shown_eq_of_lines_eq n) hLines
  simpa [Function.comp_def] using hShown

/-- A statement whose texts look like displays, with another one among its elements and with a text
of its own that no display shows. -/
def lookAlike (text : String) : Statement where
  indent := 4
  span := ⟨⟨2, 1⟩, ⟨1, 1⟩⟩
  text := text
  elements :=
    [.call
      { name := ⟨.identity, .empty, "f]@(1:1)-(1:1)"⟩
        parameters := [.token ⟨.symbol, .empty, "    ELEMENTS:"⟩]
        span := .empty
        text := text
        tokens := [⟨.lineBreak 1, .empty, "\n"⟩] },
      .statement
        { indent := 0
          span := .empty
          text := "\n"
          elements := [.token ⟨.error .unexpectedToken, .empty, "|]@(1:1)-(1:1)"⟩]
          children := []
          tokens := [] }]
  children := [{ indent := 5, span := .empty, text, elements := [], children := [], tokens := [] }]
  tokens := []

theorem shown_eq_of_renderForest_eq_lookAlike :
    (∀ s ∈ [lookAlike "a"], s.fold textsOnOneLine = true) ∧
      (∀ s ∈ [lookAlike "b"], s.fold textsOnOneLine = true) ∧
      Format.renderForest [lookAlike "a"] = Format.renderForest [lookAlike "b"] ∧
      [lookAlike "a"].map (·.fold Shown.fromNodes) =
        [lookAlike "b"].map (·.fold Shown.fromNodes) := by
  have h : ∀ s ∈ [lookAlike "a"], s.fold textsOnOneLine = true := by decide +kernel
  have hOther : ∀ s ∈ [lookAlike "b"], s.fold textsOnOneLine = true := by decide +kernel
  have hEqual : Format.renderForest [lookAlike "a"] = Format.renderForest [lookAlike "b"] := by
    decide +kernel
  exact ⟨h, hOther, hEqual, shown_eq_of_renderForest_eq _ _ h hOther hEqual⟩

end Outline
