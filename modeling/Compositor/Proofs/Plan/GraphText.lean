import Compositor.Plan.Text
import Compositor.Proofs.Compile.Edge
import Compositor.Proofs.Plan.FilterText
import Compositor.Proofs.Plan.Linear

/-!
# Graphs read back from their text

The engine reads the text of a graph from left to right.  A quote mark opens or
closes quotes.  Outside of them `;` ends a node and `,` ends a filter; groups in
brackets before the first filter of a node are its inputs, and those behind the
last one its outputs.  What is read is the graph whose text it is.
-/

namespace Compositor

/-- A node as its text shows it, each filter by its own text. -/
structure WrittenNode where
  inputs : List Pad
  filters : List String
  outputs : List Label
deriving DecidableEq

def Node.written (node : Node) : WrittenNode :=
  ⟨node.inputs, node.chain.map Filter.text, node.outputs⟩

namespace GraphText

/-! ## The reader -/

/-- A number with `:v` or `:a` is a stream of an input, all else is an edge. -/
def padOf (group : List Char) : Pad :=
  match group.takeWhile Decimal.isDigit, group.dropWhile Decimal.isDigit with
  | digit :: digits, [':', 'v'] => .input (Decimal.wholeValue (digit :: digits)) .video
  | digit :: digits, [':', 'a'] => .input (Decimal.wholeValue (digit :: digits)) .audio
  | _, _ => .link ⟨String.ofList group⟩

/-- The nodes that have been read, the parts of the next one, and what stands around the place
that has been reached: quotes, or the brackets of a group. -/
structure State where
  nodes : List WrittenNode
  inputs : List Pad
  filters : List String
  filter : List Char
  outputs : List Label
  isQuoted : Bool
  group : Option (List Char)

namespace State

def between (nodes : List WrittenNode) : State := ⟨nodes, [], [], [], [], false, none⟩

def endGroup (state : State) (group : List Char) : State :=
  if state.filters = [] ∧ state.filter = [] then
    { state with inputs := state.inputs ++ [padOf group], group := none }
  else { state with outputs := state.outputs ++ [⟨String.ofList group⟩], group := none }

def endFilter (state : State) : State :=
  { state with filters := state.filters ++ [String.ofList state.filter], filter := [] }

def endNode (state : State) : State :=
  between (state.nodes ++
    [⟨state.inputs, state.filters ++ [String.ofList state.filter], state.outputs⟩])

def read (state : State) (char : Char) : Option State :=
  match state.group with
  | some group =>
    some (if char = ']' then state.endGroup group else { state with group := some (group ++ [char]) })
  | none =>
    if state.isQuoted then
      some { state with filter := state.filter ++ [char], isQuoted := char != quoteMark }
    else if char = '[' then some { state with group := some [] }
    else if char = ';' then some state.endNode
    else if char = ']' ∨ state.outputs ≠ [] then none
    else if char = ',' then some state.endFilter
    else some { state with filter := state.filter ++ [char], isQuoted := char == quoteMark }

def readAll (state : State) (chars : List Char) : Option State := chars.foldlM read state

end State

/-- Nothing may be left open at the end. -/
def decode? (text : String) : Option (List WrittenNode) :=
  match (State.between []).readAll text.toList with
  | some state =>
    if state.isQuoted = true ∨ state.group ≠ none then none else some state.endNode.nodes
  | none => none

def enclosed (group : List Char) : List Char := '[' :: (group ++ [']'])

namespace State

theorem readAll_append (state : State) (first second : List Char) :
    state.readAll (first ++ second) =
      (state.readAll first).bind fun next => next.readAll second := by
  simp [readAll, List.foldlM_append]

theorem readAll_cons (state : State) (char : Char) (chars : List Char) :
    state.readAll (char :: chars) = (state.read char).bind fun next => next.readAll chars := by
  simp [readAll]

theorem readAll_inGroup (state : State) (group chars : List Char) (h : ']' ∉ chars) :
    ({ state with group := some group } : State).readAll chars =
      some { state with group := some (group ++ chars) } := by
  induction chars generalizing group with
  | nil => simp [readAll]
  | cons char chars ih =>
      rw [List.mem_cons, not_or] at h
      simp [readAll_cons, read, Ne.symm h.1, ih _ h.2]

theorem readAll_group {state : State} (hgroup : state.group = none)
    (hquoted : state.isQuoted = false) {chars : List Char} (h : ']' ∉ chars) :
    state.readAll (enclosed chars) = some (state.endGroup chars) := by
  have hopen : state.read '[' = some { state with group := some [] } := by
    simp [read, hgroup, hquoted]
  rw [enclosed, readAll_cons, hopen, Option.bind_some, readAll_append, readAll_inGroup _ _ _ h,
    Option.bind_some, readAll_cons]
  simp [read, readAll, endGroup]

theorem read_inFilter {state : State} (hgroup : state.group = none)
    (houtputs : state.outputs = []) {char : Char} (hbracket : char ≠ '[' ∧ char ≠ ']')
    (hseparator : ∀ other ∈ unquoted state.isQuoted [char], other ≠ ',' ∧ other ≠ ';') :
    state.read char = some { state with
      filter := state.filter ++ [char], isQuoted := endsQuoted state.isQuoted [char] } := by
  cases hquoted : state.isQuoted with
  | true => by_cases hmark : char = quoteMark <;> simp [read, endsQuoted, hgroup, hquoted, hmark]
  | false =>
      by_cases hmark : char = quoteMark
      · rw [hmark]
        simp [read, endsQuoted, hgroup, hquoted, houtputs, quoteMark]
      · rw [hquoted] at hseparator
        have hplain : char ≠ ',' ∧ char ≠ ';' := hseparator char (by simp [unquoted, hmark])
        simp [read, endsQuoted, hgroup, hquoted, houtputs, hmark, hbracket, hplain]

theorem readAll_inFilter {state : State} (hgroup : state.group = none)
    (houtputs : state.outputs = []) {chars : List Char}
    (hbrackets : ∀ char ∈ chars, char ≠ '[' ∧ char ≠ ']')
    (hseparators : ∀ char ∈ unquoted state.isQuoted chars, char ≠ ',' ∧ char ≠ ';') :
    state.readAll chars = some { state with
      filter := state.filter ++ chars, isQuoted := endsQuoted state.isQuoted chars } := by
  induction chars generalizing state with
  | nil => simp [readAll, endsQuoted]
  | cons char chars ih =>
      have hsplit := unquoted_append state.isQuoted [char] chars
      rw [List.singleton_append] at hsplit
      rw [hsplit] at hseparators
      have hread := read_inFilter hgroup houtputs (hbrackets char List.mem_cons_self)
        fun other hother => hseparators other (List.mem_append_left _ hother)
      let next : State := { state with
        filter := state.filter ++ [char], isQuoted := endsQuoted state.isQuoted [char] }
      have hrest : next.readAll chars = some { next with
          filter := next.filter ++ chars, isQuoted := endsQuoted next.isQuoted chars } := by
        apply ih
        · exact hgroup
        · exact houtputs
        · exact fun other hother => hbrackets other (List.mem_cons_of_mem _ hother)
        · exact fun other hother => hseparators other (List.mem_append_right _ hother)
      rw [readAll_cons, hread, Option.bind_some, hrest]
      simp [next, endsQuoted]

theorem readAll_filter {state : State} (hgroup : state.group = none)
    (houtputs : state.outputs = []) (hquoted : state.isQuoted = false) {chars : List Char}
    (h : IsFilter chars) :
    state.readAll chars = some { state with filter := state.filter ++ chars } := by
  have hseparators : ∀ char ∈ unquoted state.isQuoted chars, char ≠ ',' ∧ char ≠ ';' := by
    rw [hquoted]
    exact h.unseparated
  rw [readAll_inFilter hgroup houtputs h.unbracketed hseparators, hquoted, h.balanced]

end State

end GraphText

/-! ## Groups -/

def Label.IsPlain (label : Label) : Prop := GraphText.Avoids [']', ':'] label.text

theorem toList_bracketed (text : String) :
    (bracketed text).toList = GraphText.enclosed text.toList := by
  simp [bracketed, GraphText.enclosed]

namespace Pad

def chars : Pad → List Char
  | .input slot stream => Decimal.wholeDigits slot ++ [':', stream.mark]
  | .link label => label.text.toList

theorem toList_text (pad : Pad) : pad.text.toList = GraphText.enclosed pad.chars := by
  cases pad <;> simp [text, chars, Label.bracketed, toList_bracketed]

theorem closing_not_mem_chars {pad : Pad} (h : ∀ label, pad.link? = some label → label.IsPlain) :
    ']' ∉ pad.chars := by
  cases pad with
  | input slot stream =>
      intro hmem
      simp only [chars, List.mem_append, List.mem_cons, List.not_mem_nil, or_false] at hmem
      rcases hmem with hdigit | hcolon | hmark
      · exact absurd (Decimal.isDigit_of_mem_wholeDigits hdigit) (by decide)
      · exact absurd hcolon (by decide)
      · cases stream <;> exact absurd hmark (by decide)
  | link label =>
      intro hmem
      exact h label rfl ']' hmem (by decide)

end Pad

namespace GraphText

theorem padOf_input (slot : Nat) (stream : Stream) :
    padOf (Pad.input slot stream).chars = .input slot stream := by
  obtain ⟨digit, digits, hdigits, -⟩ := Decimal.exists_wholeDigits_eq_cons slot
  have hcolon : Decimal.isDigit ':' = false := by decide
  have hdrop : (Decimal.wholeDigits slot ++ [':', stream.mark]).dropWhile Decimal.isDigit =
      [':', stream.mark] := by
    rw [List.dropWhile_append_of_pos fun _ => Decimal.isDigit_of_mem_wholeDigits]
    simp [hcolon]
  have hvalue : Decimal.wholeValue (digit :: digits) = slot := by
    rw [← hdigits, Decimal.wholeValue_wholeDigits]
  rw [padOf, Pad.chars, Decimal.takeWhile_wholeDigits_append hcolon, hdrop, hdigits]
  cases stream <;> simp [Stream.mark, hvalue]

theorem padOf_of_no_colon {group : List Char} (h : ':' ∉ group) :
    padOf group = .link ⟨String.ofList group⟩ := by
  have hrest : ∀ mark, group.dropWhile Decimal.isDigit ≠ [':', mark] := by
    intro mark heq
    have hmem : ':' ∈ group.dropWhile Decimal.isDigit := by rw [heq]; exact List.mem_cons_self
    exact h ((List.dropWhile_suffix _).mem hmem)
  unfold padOf
  split
  · exact absurd ‹_› (hrest 'v')
  · exact absurd ‹_› (hrest 'a')
  · rfl

theorem padOf_chars {pad : Pad} (h : ∀ label, pad.link? = some label → label.IsPlain) :
    padOf pad.chars = pad := by
  cases pad with
  | input slot stream => exact padOf_input slot stream
  | link label =>
      have hcolon : ':' ∉ label.text.toList := fun hmem => h label rfl ':' hmem (by decide)
      rw [Pad.chars, padOf_of_no_colon hcolon, String.ofList_toList]

namespace State

theorem group_endGroup (state : State) (group : List Char) :
    (state.endGroup group).group = none ∧ (state.endGroup group).isQuoted = state.isQuoted := by
  unfold endGroup
  split <;> exact ⟨rfl, rfl⟩

theorem readAll_groups {state : State} (hgroup : state.group = none)
    (hquoted : state.isQuoted = false) {groups : List (List Char)}
    (h : ∀ group ∈ groups, ']' ∉ group) :
    state.readAll (groups.flatMap enclosed) = some (groups.foldl endGroup state) := by
  induction groups generalizing state with
  | nil => rfl
  | cons group groups ih =>
      obtain ⟨hnext, hsame⟩ := state.group_endGroup group
      rw [List.flatMap_cons, readAll_append, readAll_group hgroup hquoted (h group List.mem_cons_self),
        Option.bind_some, ih hnext (hsame.trans hquoted)
          fun other hother => h other (List.mem_cons_of_mem _ hother)]
      rfl

theorem foldl_endGroup_inputs (nodes : List WrittenNode) {pads : List Pad} (inputs : List Pad)
    (h : ∀ pad ∈ pads, padOf pad.chars = pad) :
    (pads.map Pad.chars).foldl endGroup ⟨nodes, inputs, [], [], [], false, none⟩ =
      ⟨nodes, inputs ++ pads, [], [], [], false, none⟩ := by
  induction pads generalizing inputs with
  | nil => simp
  | cons pad pads ih =>
      have hpad := h pad List.mem_cons_self
      rw [List.map_cons, List.foldl_cons, endGroup, if_pos ⟨rfl, rfl⟩, hpad,
        ih _ fun other hother => h other (List.mem_cons_of_mem _ hother), List.append_assoc]
      rfl

theorem foldl_endGroup_outputs (nodes : List WrittenNode) (inputs : List Pad)
    (filters : List String) {filter : List Char} (hfilter : filter ≠ []) (labels : List Label)
    (outputs : List Label) :
    (labels.map fun label => label.text.toList).foldl endGroup
        ⟨nodes, inputs, filters, filter, outputs, false, none⟩ =
      ⟨nodes, inputs, filters, filter, outputs ++ labels, false, none⟩ := by
  induction labels generalizing outputs with
  | nil => simp
  | cons label labels ih =>
      rw [List.map_cons, List.foldl_cons, endGroup, if_neg fun hnone => hfilter hnone.2,
        String.ofList_toList, ih, List.append_assoc]
      rfl

theorem readAll_chain (nodes : List WrittenNode) (inputs : List Pad) {filters : List String}
    {last : String} (earlier : List String)
    (h : ∀ text ∈ filters ++ [last], IsFilter text.toList) :
    (⟨nodes, inputs, earlier, [], [], false, none⟩ : State).readAll
        ([','].intercalate ((filters ++ [last]).map String.toList)) =
      some ⟨nodes, inputs, earlier ++ filters, last.toList, [], false, none⟩ := by
  induction filters generalizing earlier with
  | nil =>
      rw [List.nil_append, List.map_singleton, List.intercalate_singleton,
        readAll_filter rfl rfl rfl (h last (by simp))]
      simp
  | cons text filters ih =>
      have hrest : (filters ++ [last]).map String.toList ≠ [] := by simp
      have hfilter : (⟨nodes, inputs, earlier, [], [], false, none⟩ : State).readAll text.toList =
          some ⟨nodes, inputs, earlier, text.toList, [], false, none⟩ :=
        readAll_filter rfl rfl rfl (h text (by simp))
      have hcomma : (⟨nodes, inputs, earlier, text.toList, [], false, none⟩ : State).readAll [','] =
          some ⟨nodes, inputs, earlier ++ [text], [], [], false, none⟩ := by
        simp [readAll, read, endFilter]
      rw [List.cons_append, List.map_cons, List.intercalate_cons_of_ne_nil hrest, readAll_append,
        readAll_append, hfilter, Option.bind_some, hcomma, Option.bind_some,
        ih _ fun other hother => h other (List.mem_cons_of_mem _ hother), List.append_assoc]
      rfl

/-- Nothing is open, and these are all nodes if the text ends here. -/
structure Completes (state : State) (nodes : List WrittenNode) : Prop where
  unquoted : state.isQuoted = false
  ungrouped : state.group = none
  endNode_eq : state.endNode = between nodes

end State

end GraphText

structure Node.IsReadable (node : Node) : Prop where
  links : ∀ label ∈ node.links, label.IsPlain
  outputs : ∀ label ∈ node.outputs, label.IsPlain
  chain_ne_nil : node.chain ≠ []
  filters : ∀ filter ∈ node.chain, filter.text ≠ "" ∧ GraphText.IsFilter filter.text.toList

namespace GraphText

theorem toList_text_node (node : Node) :
    node.text.toList =
      (node.inputs.map Pad.chars).flatMap enclosed ++
        [','].intercalate ((node.chain.map Filter.text).map String.toList) ++
        (node.outputs.map fun label => label.text.toList).flatMap enclosed := by
  simp [Node.text, String.toList_join, String.toList_intercalate, List.flatMap_map, Pad.toList_text,
    Label.bracketed, toList_bracketed]

theorem readAll_inputs {node : Node} (h : node.IsReadable) (nodes : List WrittenNode) :
    (State.between nodes).readAll
        ((node.inputs.map Pad.chars).flatMap enclosed) =
      some ⟨nodes, node.inputs, [], [], [], false, none⟩ := by
  have hlinks : ∀ pad ∈ node.inputs, ∀ label, pad.link? = some label → label.IsPlain :=
    fun pad hpad label hlabel => h.links label (List.mem_filterMap.mpr ⟨pad, hpad, hlabel⟩)
  rw [State.readAll_groups rfl rfl, State.between, State.foldl_endGroup_inputs]
  · rfl
  · intro pad hpad
    exact padOf_chars (hlinks pad hpad)
  · intro group hgroup
    obtain ⟨pad, hpad, rfl⟩ := List.mem_map.mp hgroup
    exact Pad.closing_not_mem_chars (hlinks pad hpad)

theorem readAll_outputs {node : Node} (h : node.IsReadable) (nodes : List WrittenNode)
    (filters : List String) {filter : List Char} (hfilter : filter ≠ []) :
    (⟨nodes, node.inputs, filters, filter, [], false, none⟩ : State).readAll
        ((node.outputs.map fun label => label.text.toList).flatMap enclosed) =
      some ⟨nodes, node.inputs, filters, filter, node.outputs, false, none⟩ := by
  rw [State.readAll_groups rfl rfl, State.foldl_endGroup_outputs _ _ _ hfilter, List.nil_append]
  intro group hgroup hmem
  obtain ⟨label, hlabel, rfl⟩ := List.mem_map.mp hgroup
  exact h.outputs label hlabel ']' hmem (by decide)

theorem readAll_node {node : Node} (h : node.IsReadable) (nodes : List WrittenNode) :
    ∃ state, (State.between nodes).readAll node.text.toList = some state ∧
      state.Completes (nodes ++ [node.written]) := by
  have htexts : ∀ text ∈ node.chain.map Filter.text, text ≠ "" ∧ IsFilter text.toList := by
    intro text htext
    obtain ⟨filter, hfilter, rfl⟩ := List.mem_map.mp htext
    exact h.filters filter hfilter
  have hne : node.chain.map Filter.text ≠ [] := by
    simpa using h.chain_ne_nil
  obtain ⟨filters, last, hsplit⟩ := (List.eq_nil_or_concat _).resolve_left hne
  rw [List.concat_eq_append] at hsplit
  rw [hsplit] at htexts
  have hchain := State.readAll_chain nodes node.inputs [] fun text htext => (htexts text htext).2
  have hlast : last.toList ≠ [] := by
    intro hnil
    exact (htexts last (by simp)).1 (String.toList_eq_nil_iff.mp hnil)
  refine ⟨⟨nodes, node.inputs, filters, last.toList, node.outputs, false, none⟩, ?_, rfl, rfl, ?_⟩
  · rw [toList_text_node, State.readAll_append, State.readAll_append, readAll_inputs h,
      Option.bind_some, hsplit, hchain, Option.bind_some, readAll_outputs h _ _ hlast,
      List.nil_append]
  · simp [State.endNode, Node.written, hsplit]

theorem readAll_graph {nodes : List Node} (hne : nodes ≠ []) (h : ∀ node ∈ nodes, node.IsReadable)
    (earlier : List WrittenNode) :
    ∃ state, (State.between earlier).readAll
        ([';'].intercalate ((nodes.map Node.text).map String.toList)) = some state ∧
      state.Completes (earlier ++ nodes.map Node.written) := by
  induction nodes generalizing earlier with
  | nil => exact absurd rfl hne
  | cons node nodes ih =>
      obtain ⟨state, hread, hstate⟩ := readAll_node (h node List.mem_cons_self) earlier
      rcases eq_or_ne nodes [] with rfl | hnodes
      · exact ⟨state, by simpa using hread, hstate⟩
      · obtain ⟨last, hrest, hlast⟩ := ih hnodes
          (fun other hother => h other (List.mem_cons_of_mem _ hother)) (earlier ++ [node.written])
        have hend : state.readAll [';'] = some (State.between (earlier ++ [node.written])) := by
          rw [← hstate.endNode_eq]
          simp [State.readAll, State.read, hstate.ungrouped, hstate.unquoted]
        refine ⟨last, ?_, ?_⟩
        · rw [List.map_cons, List.map_cons, List.intercalate_cons_of_ne_nil (by simpa using hnodes),
            State.readAll_append, State.readAll_append, hread, Option.bind_some, hend,
            Option.bind_some, hrest]
        · rw [List.map_cons, List.append_cons]
          exact hlast

theorem decode?_text {graph : Graph} (hne : graph.nodes ≠ [])
    (h : ∀ node ∈ graph.nodes, node.IsReadable) :
    decode? graph.text = some (graph.nodes.map Node.written) := by
  obtain ⟨state, hread, hstate⟩ := readAll_graph hne h []
  have htext : graph.text.toList = [';'].intercalate ((graph.nodes.map Node.text).map String.toList) :=
    String.toList_intercalate
  rw [decode?, htext, hread]
  simp [hstate.unquoted, hstate.ungrouped, hstate.endNode_eq, State.between]

example :
    decode? "[1:a]volume=2,adelay=delays=5:all=1[a0];[base][v0]overlay=x='min(0,t)'[ov0]" =
      some [⟨[.input 1 .audio], ["volume=2", "adelay=delays=5:all=1"], [⟨"a0"⟩]⟩,
        ⟨[.link ⟨"base"⟩, .link ⟨"v0"⟩], ["overlay=x='min(0,t)'"], [⟨"ov0"⟩]⟩] := by
  decide +kernel

end GraphText

end Compositor
