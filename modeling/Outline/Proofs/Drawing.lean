import Mathlib.Data.List.Forall2
import Outline.Drawing
import Outline.Proofs.Decimal
import Outline.Proofs.Document.SpanOrder
import Outline.Proofs.Text.Lines

/-! # What a drawing shows

A drawing has a title and one line for each snapshot, in their order. It shows the shape of the
forest, an icon and a short label at each node, and the rows if they are asked for. All of this can
be read off it again, for no line that goes on with a node starts like one that begins a node.
-/
namespace Outline.Drawing
set_option autoImplicit false

/-- A line as it is written, without its line feed. -/
def Line.text (showRows : Bool) (l : Line) : String :=
  (if showRows then Decimal.padded 2 l.row ++ " " else "") ++ l.body

/-- What a line shows: its row only if rows are asked for. -/
def Line.seen (showRows : Bool) (l : Line) : Option Nat × String :=
  (if showRows then some l.row else none, l.body)

variable {showRows : Bool}

theorem blank_not_mem_padded (row : Nat) : ' ' ∉ (Decimal.padded 2 row).toList := by
  intro h
  exact absurd (Decimal.isDigit_of_mem_padded ' ' h) (by decide)

theorem text_eq_iff {l l' : Line} :
    l.text showRows = l'.text showRows ↔ l.seen showRows = l'.seen showRows := by
  cases showRows with
  | false => simp [Line.text, Line.seen]
  | true =>
    constructor
    · intro h
      -- The row ends at the first blank.
      have hChars : (Decimal.padded 2 l.row).toList ++ ' ' :: l.body.toList =
          (Decimal.padded 2 l'.row).toList ++ ' ' :: l'.body.toList := by
        simpa [Line.text] using congrArg String.toList h
      obtain ⟨hRow, hBody⟩ := append_cons_inj_of_first (blank_not_mem_padded _)
        (blank_not_mem_padded _) hChars
      have hNumber := congrArg Decimal.value hRow
      rw [Decimal.value_padded, Decimal.value_padded] at hNumber
      simp [Line.seen, hNumber, String.toList_inj.mp hBody]
    · intro h
      simp only [Line.seen, if_pos, Prod.mk.injEq, Option.some.injEq] at h
      simp [Line.text, h]

theorem map_text_eq_iff {lines lines' : List Line} :
    lines.map (·.text showRows) = lines'.map (·.text showRows) ↔
      lines.map (·.seen showRows) = lines'.map (·.seen showRows) := by
  induction lines generalizing lines' with
  | nil => cases lines' <;> simp
  | cons l lines ih =>
    cases lines' with
    | nil => simp
    | cons l' lines' => simp only [List.map_cons, List.cons.injEq, text_eq_iff, ih]

theorem seen_shift_eq_iff {lead : String} {l l' : Line} :
    (l.shift lead).seen showRows = (l'.shift lead).seen showRows ↔
      l.seen showRows = l'.seen showRows := by
  simp [Line.seen, Line.shift, String.append_right_inj]

theorem map_seen_shift_eq_iff {lead : String} {lines lines' : List Line} :
    (lines.map (·.shift lead)).map (·.seen showRows) =
        (lines'.map (·.shift lead)).map (·.seen showRows) ↔
      lines.map (·.seen showRows) = lines'.map (·.seen showRows) := by
  induction lines generalizing lines' with
  | nil => cases lines' <;> simp
  | cons l lines ih =>
    cases lines' with
    | nil => simp
    | cons l' lines' => simp only [List.map_cons, List.cons.injEq, seen_shift_eq_iff, ih]

/-- The blocks of sibling nodes, each under its connector. -/
def hangEach : List (List Line) → List (List Line)
  | [] => []
  | block :: blocks => hang blocks.isEmpty block :: hangEach blocks

theorem hangAll_cons (block : List Line) (blocks : List (List Line)) :
    hangAll (block :: blocks) = hang blocks.isEmpty block ++ hangAll blocks := by
  cases blocks <;> simp [hangAll]

theorem hangAll_eq_flatten (blocks : List (List Line)) :
    hangAll blocks = (hangEach blocks).flatten := by
  induction blocks with
  | nil => rfl
  | cons block blocks ih => rw [hangAll_cons, hangEach, List.flatten_cons, ih]

/-- A connector begins a node; blanks and bars go on with one. -/
def begins (l : Option Nat × String) : Bool :=
  l.2.toList.head? == some '├' || l.2.toList.head? == some '└'

theorem isBlock_hang {block : List Line} (h : block ≠ []) (isLast : Bool) :
    IsBlock begins ((hang isLast block).map (·.seen showRows)) := by
  obtain ⟨first, rest, rfl⟩ := List.exists_cons_of_ne_nil h
  refine ⟨?_, ?_⟩
  · cases isLast <;> simp [begins, Line.seen, Line.shift]
  · intro l hl
    obtain ⟨m, hm, rfl⟩ := List.mem_map.mp hl
    obtain ⟨n, -, rfl⟩ := List.mem_map.mp hm
    cases isLast <;> simp [begins, Line.seen, Line.shift]

theorem hang_eq_iff {isLast : Bool} {block block' : List Line} :
    (hang isLast block).map (·.seen showRows) = (hang isLast block').map (·.seen showRows) ↔
      block.map (·.seen showRows) = block'.map (·.seen showRows) := by
  cases block <;> cases block' <;>
    simp only [hang, List.map_cons, List.map_nil, List.cons.injEq, seen_shift_eq_iff,
      map_seen_shift_eq_iff, reduceCtorEq]

theorem hangEach_eq_iff {blocks blocks' : List (List Line)} :
    (hangEach blocks).map (·.map (·.seen showRows)) =
        (hangEach blocks').map (·.map (·.seen showRows)) ↔
      blocks.map (·.map (·.seen showRows)) = blocks'.map (·.map (·.seen showRows)) := by
  induction blocks generalizing blocks' with
  | nil => cases blocks' <;> simp [hangEach]
  | cons block blocks ih =>
    cases blocks' with
    | nil => simp [hangEach]
    | cons block' blocks' =>
      simp only [hangEach, List.map_cons, List.cons.injEq, ih]
      refine and_congr_left fun hRest => ?_
      -- As many blocks follow on either side, so the connectors are the same.
      have hLength : blocks.length = blocks'.length := by simpa using congrArg List.length hRest
      have hLast : blocks.isEmpty = blocks'.isEmpty := by
        cases blocks <;> cases blocks' <;> simp_all
      rw [hLast, hang_eq_iff]

theorem hangAll_eq_iff {blocks blocks' : List (List Line)} (h : [] ∉ blocks) (h' : [] ∉ blocks') :
    (hangAll blocks).map (·.seen showRows) = (hangAll blocks').map (·.seen showRows) ↔
      blocks.map (·.map (·.seen showRows)) = blocks'.map (·.map (·.seen showRows)) := by
  have hBlocks : ∀ {blocks : List (List Line)}, [] ∉ blocks →
      ∀ b ∈ (hangEach blocks).map (·.map (·.seen showRows)), IsBlock begins b := by
    intro blocks hNonempty
    induction blocks with
    | nil => simp [hangEach]
    | cons block blocks ih =>
      rw [List.mem_cons, not_or] at hNonempty
      exact List.forall_mem_cons.mpr ⟨isBlock_hang (Ne.symm hNonempty.1) _, ih hNonempty.2⟩
  rw [hangAll_eq_flatten, hangAll_eq_flatten, List.map_flatten, List.map_flatten, ← hangEach_eq_iff]
  exact ⟨eq_of_flatten_eq (hBlocks h) (hBlocks h'), congrArg List.flatten⟩

/-- What a drawing shows of a node: nothing but its icon, its shortened label and perhaps the row
where it starts, and the same of the nodes below it. -/
structure Sketch where
  icon : String
  label : String
  row : Option Nat
  parts : List Sketch

mutual

def sketch (showRows : Bool) : Snapshot → Sketch
  | ⟨nodeType, label, span, _, children⟩ =>
    ⟨icon nodeType, shorten label, if showRows then some span.start.row else none,
      sketchEach showRows children⟩

def sketchEach (showRows : Bool) : List Snapshot → List Sketch
  | [] => []
  | s :: rest => sketch showRows s :: sketchEach showRows rest

end

theorem exists_icon (nodeType : String) : ∃ c, (icon nodeType).toList = [c] ∧ c ≠ '\n' := by
  unfold icon
  split
  all_goals exact ⟨_, rfl, by decide⟩

theorem icon_append_eq_iff {nodeType nodeType' label label' : String} :
    icon nodeType ++ " " ++ label = icon nodeType' ++ " " ++ label' ↔
      icon nodeType = icon nodeType' ∧ label = label' := by
  obtain ⟨c, hIcon, -⟩ := exists_icon nodeType
  obtain ⟨c', hIcon', -⟩ := exists_icon nodeType'
  simp only [← String.toList_inj, String.toList_append, hIcon, hIcon']
  simp

theorem nil_not_mem_drawEach (snapshots : List Snapshot) : [] ∉ drawEach snapshots := by
  induction snapshots with
  | nil => simp [drawEach]
  | cons s snapshots ih => cases s; simp [drawEach, draw, ih]

mutual

theorem draw_eq_iff (s t : Snapshot) :
    (draw s).map (·.seen showRows) = (draw t).map (·.seen showRows) ↔
      sketch showRows s = sketch showRows t := by
  obtain ⟨nodeType, label, span, attributes, children⟩ := s
  obtain ⟨nodeType', label', span', attributes', children'⟩ := t
  rw [draw, draw, sketch, sketch, List.map_cons, List.map_cons, List.cons.injEq,
    hangAll_eq_iff (nil_not_mem_drawEach _) (nil_not_mem_drawEach _),
    drawEach_eq_iff children children', Line.seen, Line.seen, Prod.mk.injEq, icon_append_eq_iff,
    Sketch.mk.injEq]
  constructor
  · rintro ⟨⟨hRow, hIcon, hLabel⟩, hParts⟩
    exact ⟨hIcon, hLabel, hRow, hParts⟩
  · rintro ⟨hIcon, hLabel, hRow, hParts⟩
    exact ⟨⟨hRow, hIcon, hLabel⟩, hParts⟩

theorem drawEach_eq_iff (snapshots snapshots' : List Snapshot) :
    (drawEach snapshots).map (·.map (·.seen showRows)) =
        (drawEach snapshots').map (·.map (·.seen showRows)) ↔
      sketchEach showRows snapshots = sketchEach showRows snapshots' := by
  match snapshots, snapshots' with
  | [], [] => simp [drawEach, sketchEach]
  | [], _ :: _ => simp [drawEach, sketchEach]
  | _ :: _, [] => simp [drawEach, sketchEach]
  | s :: rest, s' :: rest' =>
    rw [drawEach, drawEach, sketchEach, sketchEach, List.map_cons, List.map_cons, List.cons.injEq,
      List.cons.injEq, draw_eq_iff s s', drawEach_eq_iff rest rest']

end

def connectors : List Char := ['├', '└', '│', '─', ' ']

/-- Behind its connectors, the line shows the icon and the shortened label of the snapshot. -/
def Shows (line : String) (s : Snapshot) : Prop :=
  ∃ lead : String, (∀ c ∈ lead.toList, c ∈ connectors) ∧
    line = lead ++ icon s.nodeType ++ " " ++ shorten s.label

structure Line.Shows (l : Line) (s : Snapshot) : Prop where
  row : l.row = s.span.start.row
  body : Drawing.Shows l.body s

theorem Line.Shows.shift {l : Line} {s : Snapshot} {lead : String}
    (hLead : ∀ c ∈ lead.toList, c ∈ connectors) (h : l.Shows s) : (l.shift lead).Shows s where
  row := h.row
  body := by
    obtain ⟨lead', hLead', hBody⟩ := h.body
    refine ⟨lead ++ lead', ?_, by simp [Line.shift, hBody, String.append_assoc]⟩
    rw [String.toList_append]
    exact List.forall_mem_append.mpr ⟨hLead, hLead'⟩

theorem shows_hang {block : List Line} {snapshots : List Snapshot}
    (h : List.Forall₂ Line.Shows block snapshots) (isLast : Bool) :
    List.Forall₂ Line.Shows (hang isLast block) snapshots := by
  cases h with
  | nil => exact .nil
  | cons hFirst hRest =>
    have hBranch : ∀ c ∈ (if isLast then "└─ " else "├─ ").toList, c ∈ connectors := by
      cases isLast <;> simp [connectors]
    have hBar : ∀ c ∈ (if isLast then "  " else "│ ").toList, c ∈ connectors := by
      cases isLast <;> simp [connectors]
    exact .cons (hFirst.shift hBranch)
      (List.forall₂_map_left_iff.mpr (hRest.imp fun _ _ hLine => hLine.shift hBar))

mutual

/-- There is one line for each snapshot, in their order. -/
theorem shows_draw (s : Snapshot) : List.Forall₂ Line.Shows (draw s) s.preorder := by
  obtain ⟨nodeType, label, span, attributes, children⟩ := s
  rw [draw, Snapshot.preorder]
  have hBody : Shows (icon nodeType ++ " " ++ shorten label)
      ⟨nodeType, label, span, attributes, children⟩ := ⟨"", by simp, by simp⟩
  exact .cons ⟨rfl, hBody⟩ (shows_drawEach children)

theorem shows_drawEach (snapshots : List Snapshot) :
    List.Forall₂ Line.Shows (hangAll (drawEach snapshots)) (Snapshot.preorders snapshots) := by
  match snapshots with
  | [] => exact .nil
  | s :: rest =>
    rw [drawEach, Snapshot.preorders, hangAll_cons]
    exact List.rel_append (shows_hang (shows_draw s) _) (shows_drawEach rest)

end

theorem rows_drawEach (snapshots : List Snapshot) :
    (hangAll (drawEach snapshots)).map (·.row) =
      (Snapshot.preorders snapshots).map (·.span.start.row) := by
  rw [← List.forall₂_eq_eq_eq, List.forall₂_map_left_iff, List.forall₂_map_right_iff]
  exact (shows_drawEach snapshots).imp fun _ _ hLine => hLine.row

theorem lineFeed_not_mem_shorten (label : String) : '\n' ∉ (shorten label).toList := by
  rw [toList_shorten, List.mem_append, not_or]
  constructor
  · intro h
    obtain ⟨c, -, hc⟩ := List.mem_map.mp h
    split at hc
    · cases hc
    · contradiction
  · split <;> decide

theorem Shows.lineFeed_not_mem {line : String} {s : Snapshot} (h : Shows line s) :
    '\n' ∉ line.toList := by
  obtain ⟨lead, hLead, rfl⟩ := h
  obtain ⟨c, hIcon, hc⟩ := exists_icon s.nodeType
  have hConnectors : '\n' ∉ lead.toList := fun h => absurd (hLead _ h) (by decide)
  simp [hConnectors, hIcon, hc.symm, lineFeed_not_mem_shorten]

theorem lineFeed_not_mem_drawEach (snapshots : List Snapshot) :
    ∀ l ∈ hangAll (drawEach snapshots), '\n' ∉ l.body.toList := by
  have hLines := (shows_drawEach snapshots).imp
    fun (l : Line) s (hLine : l.Shows s) => And.intro hLine.body.lineFeed_not_mem hLine
  exact ((List.forall₂_and_left _ _).mp hLines).1

theorem render_eq_intercalate (showRows : Bool) (snapshots : List Snapshot) :
    render showRows snapshots = "\n".intercalate
      ("⧉ document" :: (hangAll (drawEach snapshots)).map (·.text showRows) ++ [""]) := by
  rw [intercalate_concat_empty, List.map_cons, List.map_map, ← String.toList_inj]
  simp [render, Line.display, Line.text, Function.comp_def]

theorem linesOf_render (showRows : Bool) (snapshots : List Snapshot) :
    linesOf (render showRows snapshots) =
      "⧉ document" :: (hangAll (drawEach snapshots)).map (·.text showRows) ++ [""] := by
  rw [render_eq_intercalate]
  apply linesOf_intercalate_of_lines (by simp)
  have hBodies := lineFeed_not_mem_drawEach snapshots
  have hTitle : '\n' ∉ "⧉ document".toList := by decide
  have hRows : ∀ row, '\n' ∉ (Decimal.padded 2 row).toList := by
    intro row h
    exact absurd (Decimal.isDigit_of_mem_padded '\n' h) (by decide)
  simp only [List.forall_mem_append, List.forall_mem_cons, List.forall_mem_map]
  refine ⟨⟨hTitle, ?_⟩, by simp⟩
  intro l hl
  cases showRows <;> simp [Line.text, hBodies l hl, hRows]

theorem render_eq_iff {showRows : Bool} {snapshots snapshots' : List Snapshot} :
    render showRows snapshots = render showRows snapshots' ↔
      sketchEach showRows snapshots = sketchEach showRows snapshots' := by
  rw [← drawEach_eq_iff, ← hangAll_eq_iff (nil_not_mem_drawEach _) (nil_not_mem_drawEach _),
    ← map_text_eq_iff]
  constructor
  · intro h
    have hLines := congrArg linesOf h
    rw [linesOf_render, linesOf_render] at hLines
    exact (List.cons.inj (List.append_cancel_right hLines)).2
  · intro h
    rw [render_eq_intercalate, render_eq_intercalate, h]

theorem map_text_true (snapshots : List Snapshot) :
    (hangAll (drawEach snapshots)).map (·.text true) =
      List.zipWith (fun s body => Decimal.padded 2 s.span.start.row ++ " " ++ body)
        (Snapshot.preorders snapshots) ((hangAll (drawEach snapshots)).map (·.body)) := by
  calc (hangAll (drawEach snapshots)).map (·.text true)
      = List.zipWith (fun row body => Decimal.padded 2 row ++ " " ++ body)
          ((hangAll (drawEach snapshots)).map (·.row))
          ((hangAll (drawEach snapshots)).map (·.body)) := by
        simp [Line.text, List.zipWith_map]
    _ = _ := by rw [rows_drawEach, List.zipWith_map_left]

/-- A drawing is a title and one line for each snapshot in their order, with its icon and shortened
label behind connectors, and no label breaks a line. With rows, the only difference is that each
line has its row in front, in two digits or more. Two forests have the same drawing exactly if their
sketches are the same. -/
theorem linesOf_render_ofForest (forest : List Statement) :
    (∃ lines : List String,
      lines.length = (Snapshot.preorders (Snapshot.ofForest forest)).length ∧
      List.Forall₂ Shows lines (Snapshot.preorders (Snapshot.ofForest forest)) ∧
      linesOf (render false (Snapshot.ofForest forest)) = "⧉ document" :: lines ++ [""] ∧
      linesOf (render true (Snapshot.ofForest forest)) =
        "⧉ document" ::
          List.zipWith (fun s line => Decimal.padded 2 s.span.start.row ++ " " ++ line)
            (Snapshot.preorders (Snapshot.ofForest forest)) lines ++ [""]) ∧
      (∀ row, 2 ≤ (Decimal.padded 2 row).toList.length ∧
        (Decimal.padded 2 row).toList.all Char.isDigit = true ∧
        Decimal.value (Decimal.padded 2 row).toList = row) ∧
      ∀ (showRows : Bool) (other : List Statement),
        render showRows (Snapshot.ofForest forest) = render showRows (Snapshot.ofForest other) ↔
          sketchEach showRows (Snapshot.ofForest forest) =
            sketchEach showRows (Snapshot.ofForest other) := by
  have hLines := shows_drawEach (Snapshot.ofForest forest)
  refine ⟨⟨(hangAll (drawEach (Snapshot.ofForest forest))).map (·.body), ?_, ?_, ?_, ?_⟩, ?_, ?_⟩
  · rw [List.length_map, hLines.length_eq]
  · exact List.forall₂_map_left_iff.mpr (hLines.imp fun _ _ hLine => hLine.body)
  · simp [linesOf_render, Line.text]
  · rw [linesOf_render, map_text_true]
  · intro row
    exact ⟨Decimal.le_length_padded 2 row, List.all_eq_true.mpr Decimal.isDigit_of_mem_padded,
      Decimal.value_padded 2 row⟩
  · intro showRows other
    exact render_eq_iff

end Outline.Drawing
