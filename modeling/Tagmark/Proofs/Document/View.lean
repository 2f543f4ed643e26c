import Tagmark.Document.Tree
import Tagmark.Proofs.Document.Walk

/-!
Documents seen in part. A view says what counts of a place and which characters count in a text;
what is wrong with the text of a tag never counts. Tags mean the same where their tokens look the
same (`View.header_congr`), and so do the trees of marks that look the same (`View.assemble_congr`).
-/

namespace Tagmark

theorem KeyMap.map_insert {α β : Type} (f : α → β) (source : KeyMap α) (name : String)
    (value : α) : (source.insert name value).map f = (source.map f).insert name (f value) := by
  apply ext_get?
  intro other
  by_cases h : other = name <;> simp [h]

structure View where
  place : Point → Point
  keeps : Char → Bool

namespace View

/-- The view of places alone, with all texts as they are. -/
def ofPlaces (move : Point → Point) : View :=
  ⟨move, fun _ => true⟩

variable (view : View)

def text (value : String) : String :=
  String.ofList (value.toList.filter view.keeps)

theorem text_ofList (text : List Char) :
    view.text (String.ofList text) = String.ofList (text.filter view.keeps) := by
  rw [View.text, String.toList_ofList]

def span (span : Span) : Span :=
  span.relocate view.place

def value : Value → Value
  | .string text => .string (view.text text)
  | value => value

def header : Header → Header
  | .opening name attributes selfClosing => .opening name (attributes.map view.value) selfClosing
  | .closing name => .closing name

def tag (tag : Tag) : Tag :=
  { tag with attributes := tag.attributes.map view.value, span := view.span tag.span }

mutual

def node : Node → Node
  | .content value span => .content (view.text value) (view.span span)
  | .block tag children => .block (view.tag tag) (nodes children)

def nodes : List Node → List Node
  | [] => []
  | first :: rest => node first :: nodes rest

end

def document (document : Document) : Document :=
  ⟨document.frontmatter.map view.text, view.nodes document.children⟩

def fault : Fault → Fault
  | .unterminatedTag place => .unterminatedTag (view.place place)
  | .invalidTag _ place => .invalidTag .unfinished (view.place place)
  | .unclosedTag name place => .unclosedTag name (view.place place)
  | .unclosedFence name place => .unclosedFence name (view.place place)
  | .unexpectedClosing name place => .unexpectedClosing name (view.place place)
  | fault => fault

def result {α β : Type} (f : α → β) : Except Fault α → Except Fault β
  | .ok value => .ok (f value)
  | .error fault => .error (view.fault fault)

@[simp] theorem result_ok {α β : Type} (f : α → β) (value : α) :
    view.result f (.ok value) = .ok (f value) := rfl

@[simp] theorem result_error {α β : Type} (f : α → β) (fault : Fault) :
    view.result f (.error fault) = .error (view.fault fault) := rfl

theorem exists_of_result_eq_ok {α β : Type} {f : α → β} {result : Except Fault α} {value : β}
    (hresult : view.result f result = .ok value) : ∃ source, result = .ok source ∧ f source = value := by
  cases result with
  | error fault => cases hresult
  | ok source => exact ⟨source, rfl, Except.ok.inj hresult⟩

theorem nodes_append (left right : List Node) :
    view.nodes (left ++ right) = view.nodes left ++ view.nodes right := by
  induction left with
  | nil => rfl
  | cons node rest induction => rw [List.cons_append, nodes, induction, nodes, List.cons_append]

theorem nodes_reverse (list : List Node) : view.nodes list.reverse = (view.nodes list).reverse := by
  induction list with
  | nil => rfl
  | cons node rest induction =>
      rw [List.reverse_cons, nodes_append, induction]
      simp [nodes]

theorem result_document (frontmatter : Option String) (children : Except Fault (List Node)) :
    view.result view.document (children.map (Document.mk frontmatter)) =
      (view.result view.nodes children).map (Document.mk (frontmatter.map view.text)) := by
  cases children <;> rfl

theorem text_ofPlaces (move : Point → Point) (value : String) :
    (ofPlaces move).text value = value := by
  unfold text ofPlaces
  rw [List.filter_eq_self.2 fun _ _ => rfl, String.ofList_toList]

theorem value_ofPlaces (move : Point → Point) (value : Value) :
    (ofPlaces move).value value = value := by
  cases value <;> simp [View.value, text_ofPlaces]

theorem attributes_ofPlaces (move : Point → Point) (attributes : KeyMap Value) :
    attributes.map (ofPlaces move).value = attributes := by
  apply KeyMap.ext_get?
  intro name
  cases hget : attributes.get? name <;> simp [hget, value_ofPlaces]

theorem tag_ofPlaces (move : Point → Point) (tag : Tag) :
    (ofPlaces move).tag tag = tag.relocate move := by
  rw [View.tag, attributes_ofPlaces]
  rfl

mutual

theorem node_ofPlaces (move : Point → Point) (node : Node) :
    (ofPlaces move).node node = node.relocate move := by
  cases node with
  | content value span =>
      rw [View.node, text_ofPlaces]
      rfl
  | block tag children =>
      rw [View.node, tag_ofPlaces, nodes_ofPlaces move children]
      rfl

theorem nodes_ofPlaces (move : Point → Point) (nodes : List Node) :
    (ofPlaces move).nodes nodes = Node.relocateAll move nodes := by
  cases nodes with
  | nil => rfl
  | cons node rest =>
      rw [View.nodes, node_ofPlaces move node, nodes_ofPlaces move rest]
      rfl

end

def token : Token → Token
  | .text value quote => .text (view.text value) quote
  | token => token

def placed (placed : PlacedToken) : PlacedToken :=
  ⟨view.token placed.token, view.place placed.start⟩

theorem isTrivia_token (token : Token) : (view.token token).isTrivia = token.isTrivia := by
  cases token <;> rfl

theorem significant_cons_congr {token other : Token} {start place : Point}
    {tokens others : List PlacedToken} (htoken : view.token token = view.token other)
    (hplace : view.place start = view.place place)
    (hrest : (tokens.filter fun placed => !placed.token.isTrivia).map view.placed =
      (others.filter fun placed => !placed.token.isTrivia).map view.placed) :
    ((⟨token, start⟩ :: tokens).filter fun placed => !placed.token.isTrivia).map view.placed =
      ((⟨other, place⟩ :: others).filter fun placed => !placed.token.isTrivia).map
        view.placed := by
  have htrivia : token.isTrivia = other.isTrivia := by
    rw [← view.isTrivia_token token, htoken, view.isTrivia_token]
  simp only [List.filter_cons, htrivia]
  split
  · simp only [List.map_cons, hrest, View.placed, htoken, hplace]
  · exact hrest

structure Overlooks (flaw : TagFlaw → TagFlaw) : Prop where
  expectedName : ∀ token,
    flaw (.expectedName (some (view.token token))) = flaw (.expectedName (some token))
  closingWithMore : ∀ token,
    flaw (.closingWithMore (view.token token)) = flaw (.closingWithMore token)
  expectedAttribute : ∀ token,
    flaw (.expectedAttribute (view.token token)) = flaw (.expectedAttribute token)

theorem overlooks_unfinished : view.Overlooks fun _ => .unfinished :=
  ⟨fun _ => rfl, fun _ => rfl, fun _ => rfl⟩

theorem token_ofPlaces (move : Point → Point) (token : Token) :
    (ofPlaces move).token token = token := by
  cases token with
  | text value quote => exact congrArg (Token.text · quote) (text_ofPlaces move value)
  | _ => rfl

theorem overlooks_ofPlaces (move : Point → Point) : (ofPlaces move).Overlooks id := by
  constructor <;> intro token <;> rw [token_ofPlaces]

section Flaws

variable (flaw : TagFlaw → TagFlaw)

def judge : Fault → Fault
  | .invalidTag reason place => .invalidTag (flaw reason) place
  | fault => fault

def faultBy : Fault → Fault
  | .unterminatedTag place => .unterminatedTag (view.place place)
  | .invalidTag reason place => .invalidTag (flaw reason) (view.place place)
  | .unclosedTag name place => .unclosedTag name (view.place place)
  | .unclosedFence name place => .unclosedFence name (view.place place)
  | .unexpectedClosing name place => .unexpectedClosing name (view.place place)
  | fault => fault

def resultBy {α β : Type} (f : α → β) : Except Fault α → Except Fault β
  | .ok value => .ok (f value)
  | .error fault => .error (view.faultBy flaw fault)

theorem fault_eq_faultBy (fault : Fault) :
    view.fault fault = view.faultBy (fun _ => .unfinished) fault := by
  cases fault <;> rfl

theorem result_eq_resultBy {α β : Type} (f : α → β) (result : Except Fault α) :
    view.result f result = view.resultBy (fun _ => .unfinished) f result := by
  cases result with
  | ok value => rfl
  | error fault => exact congrArg Except.error (view.fault_eq_faultBy fault)

theorem invalidTag_congr {reason other : TagFlaw} (hreason : reason = other) (place : Point) :
    (.error (.invalidTag reason place) : Except Fault Header) = .error (.invalidTag other place) := by
  rw [hreason]

variable {flaw}

theorem value_placed (placed : PlacedToken) :
    (Header.value (view.placed placed)).mapError (judge flaw) =
      view.resultBy flaw view.value (Header.value placed) := by
  obtain ⟨token, start⟩ := placed
  unfold Header.value
  cases token with
  | name word =>
      dsimp only [View.placed, View.token]
      split <;> first | contradiction | rfl
  | _ => rfl

variable (hflaw : view.Overlooks flaw)

include hflaw

theorem ofClosing_placed (stop : Point) (tokens : List PlacedToken) :
    (Header.ofClosing (view.place stop) (tokens.map view.placed)).mapError (judge flaw) =
      view.resultBy flaw view.header (Header.ofClosing stop tokens) := by
  have hname := hflaw.expectedName
  have hmore := hflaw.closingWithMore
  rcases tokens with _ | ⟨⟨first, start⟩, _ | ⟨⟨second, next⟩, rest⟩⟩
  · rfl
  · cases first with
    | text value quote =>
        exact invalidTag_congr (hname (.text value quote)) (view.place start)
    | _ => rfl
  · cases first with
    | name word =>
        cases second with
        | text value quote =>
            exact invalidTag_congr (hmore (.text value quote)) (view.place next)
        | _ => rfl
    | text value quote =>
        exact invalidTag_congr (hname (.text value quote)) (view.place start)
    | _ => rfl

omit hflaw in
theorem ofOpening_attribute (stop : Point) (name : String) (attributes : KeyMap Value)
    (key : String) (start place : Point) (written : PlacedToken) (rest : List PlacedToken) :
    Header.ofOpening stop name attributes (⟨.name key, start⟩ :: ⟨.equals, place⟩ :: written :: rest) =
      (Header.value written).bind fun value =>
        Header.ofOpening stop name (attributes.insert key value) rest := by
  rw [Header.ofOpening]
  cases Header.value written <;> rfl

theorem ofOpening_placed (stop : Point) (name : String) (attributes : KeyMap Value)
    (tokens : List PlacedToken) :
    (Header.ofOpening (view.place stop) name (attributes.map view.value)
        (tokens.map view.placed)).mapError (judge flaw) =
      view.resultBy flaw view.header (Header.ofOpening stop name attributes tokens) := by
  induction hlength : tokens.length using Nat.strongRecOn generalizing attributes tokens with
  | ind length induction =>
      rcases tokens with _ | ⟨⟨token, start⟩, rest⟩
      · rfl
      cases token with
      | name key =>
          rcases rest with _ | ⟨⟨next, place⟩, rest⟩
          · rfl
          cases next with
          | equals =>
              rcases rest with _ | ⟨written, rest⟩
              · rfl
              have hvalue : (Header.value (view.placed written)).mapError (judge flaw) = _ :=
                view.value_placed written
              have hown := ofOpening_attribute stop name attributes key start place written rest
              have hplaced := ofOpening_attribute (view.place stop) name (attributes.map view.value)
                key (view.place start) (view.place place) (view.placed written)
                (rest.map view.placed)
              rw [hown]
              refine (congrArg (Except.mapError (judge flaw)) hplaced).trans ?_
              generalize Header.value (view.placed written) = other at hvalue
              generalize Header.value written = read at hvalue
              cases read with
              | error fault =>
                  cases other with
                  | error other => exact congrArg Except.error (Except.error.inj hvalue)
                  | ok value => cases hvalue
              | ok value =>
                  cases other with
                  | error other => cases hvalue
                  | ok other =>
                      obtain rfl : other = view.value value := Except.ok.inj hvalue
                      have hshort : rest.length < length := by
                        rw [← hlength]
                        simp
                        omega
                      have hrest := induction rest.length hshort (attributes.insert key value) rest rfl
                      rwa [KeyMap.map_insert] at hrest
          | _ => rfl
      | text value quote =>
          exact invalidTag_congr (hflaw.expectedAttribute (.text value quote)) (view.place start)
      | _ => rfl

theorem ofTokens_placed (stop : Point) (tokens : List PlacedToken) :
    (Header.ofTokens (view.place stop) (tokens.map view.placed)).mapError (judge flaw) =
      view.resultBy flaw view.header (Header.ofTokens stop tokens) := by
  rcases tokens with _ | ⟨⟨token, start⟩, rest⟩
  · rfl
  · cases token with
    | slash => exact view.ofClosing_placed hflaw stop rest
    | name word => exact view.ofOpening_placed hflaw stop word ∅ rest
    | text value quote =>
        exact invalidTag_congr (hflaw.expectedName (.text value quote)) (view.place start)
    | _ => rfl

omit hflaw in
theorem isOpening_placed (placed : PlacedToken) :
    ((view.placed placed).token != .opening) = (placed.token != .opening) := by
  obtain ⟨token, start⟩ := placed
  cases token <;> rfl

theorem header_group (group : TokenGroup) :
    view.resultBy flaw view.header group.header =
      (Header.ofTokens (view.span group.span).stop
        ((group.significant.map view.placed).dropWhile (·.token != .opening)).tail).mapError
          (judge flaw) := by
  have hopening : (fun placed : PlacedToken => (view.placed placed).token != .opening) =
      fun placed => placed.token != .opening := funext view.isOpening_placed
  rw [List.dropWhile_map, ← List.map_tail]
  change _ = (Header.ofTokens (view.place group.span.stop) _).mapError (judge flaw)
  rw [view.ofTokens_placed hflaw, Function.comp_def, hopening]
  rfl

end Flaws

/-- Tags look the same where their tokens do, white space left aside. -/
structure SameGroup (left right : TokenGroup) : Prop where
  tokens : left.significant.map view.placed = right.significant.map view.placed
  span : view.span left.span = view.span right.span

theorem header_congr {left right : TokenGroup} (hsame : view.SameGroup left right) :
    view.result view.header left.header = view.result view.header right.header := by
  rw [result_eq_resultBy, result_eq_resultBy, view.header_group view.overlooks_unfinished,
    view.header_group view.overlooks_unfinished, hsame.tokens, hsame.span]

def mark : Mark → Mark
  | .content value span => .content (view.text value) (view.span span)
  | .leaf tag => .leaf (view.tag tag)
  | .opening name attributes start =>
      .opening name (attributes.map view.value) (view.place start)
  | .closing name span => .closing name (view.span span)
  | .fault fault => .fault (view.fault fault)

def markOfHeader (span : Span) : Except Fault Header → Mark
  | .error fault => .fault fault
  | .ok (.opening name attributes true) => .leaf ⟨name, attributes, true, span⟩
  | .ok (.opening name attributes false) => .opening name attributes span.start
  | .ok (.closing name) => .closing name span

theorem ofItem?_tag (group : TokenGroup) :
    Mark.ofItem? (.tag group) = some (markOfHeader group.span group.header) := by
  rw [Mark.ofItem?]
  rcases group.header with fault | header
  · rfl
  · rcases header with ⟨name, attributes, _ | _⟩ | name <;> rfl

section Flaws

variable (flaw : TagFlaw → TagFlaw)

def markBy : Mark → Mark
  | .fault fault => .fault (view.faultBy flaw fault)
  | mark => view.mark mark

theorem mark_eq_markBy : view.mark = view.markBy fun _ => .unfinished := by
  funext mark
  cases mark with
  | fault fault => exact congrArg Mark.fault (view.fault_eq_faultBy fault)
  | _ => rfl

theorem markBy_markOfHeader (span : Span) (header : Except Fault Header) :
    view.markBy flaw (markOfHeader span header) =
      markOfHeader (view.span span) (view.resultBy flaw view.header header) := by
  rcases header with fault | header
  · rfl
  · rcases header with ⟨name, attributes, _ | _⟩ | name <;> rfl

end Flaws

theorem mark_tag_congr {left right : TokenGroup} (hsame : view.SameGroup left right) :
    (Mark.ofItem? (.tag left)).map view.mark = (Mark.ofItem? (.tag right)).map view.mark := by
  rw [ofItem?_tag, ofItem?_tag, Option.map_some, Option.map_some, mark_eq_markBy,
    markBy_markOfHeader, markBy_markOfHeader, ← result_eq_resultBy, ← result_eq_resultBy,
    hsame.span, view.header_congr hsame]

def fence (fence : Fence) : Fence :=
  { fence with start := view.place fence.start }

def openTag (tag : OpenTag) : OpenTag :=
  { tag with
    attributes := tag.attributes.map view.value
    start := view.place tag.start
    before := view.nodes tag.before }

section Flaws

variable (flaw : TagFlaw → TagFlaw)

theorem unclosed_view (open? : Option Fence) (innermost : OpenTag) :
    unclosed (open?.map view.fence) (view.openTag innermost) =
      view.faultBy flaw (unclosed open? innermost) := by
  cases open? <;> rfl

theorem assemble_view (open? : Option Fence) (stack : List OpenTag) (built : List Node)
    (marks : List Mark) :
    assemble (open?.map view.fence) (stack.map view.openTag) (view.nodes built)
        (marks.map (view.markBy flaw)) =
      view.resultBy flaw view.nodes (assemble open? stack built marks) := by
  induction marks generalizing stack built with
  | nil =>
      cases stack with
      | nil => exact congrArg Except.ok (view.nodes_reverse built).symm
      | cons innermost outer =>
          exact congrArg Except.error (view.unclosed_view flaw open? innermost)
  | cons mark rest induction =>
      cases mark with
      | content value span => exact induction stack (.content value span :: built)
      | leaf tag => exact induction stack (.block tag [] :: built)
      | opening name attributes start => exact induction (⟨name, attributes, start, built⟩ :: stack) []
      | fault fault => rfl
      | closing name span =>
          cases stack with
          | nil => rfl
          | cons innermost outer =>
              by_cases hname : innermost.name = name
              · have hrest := induction outer (.block ⟨name, innermost.attributes, false,
                  ⟨innermost.start, span.stop⟩⟩ built.reverse :: innermost.before)
                simp only [nodes, node, view.nodes_reverse] at hrest
                simp only [List.map_cons, assemble, View.mark, markBy, openTag, hname, if_true]
                exact hrest
              · simp [assemble, View.mark, markBy, openTag, hname, faultBy, resultBy, View.span,
                  Span.relocate]

end Flaws

theorem assemble_congr {left right : Option Fence} {marks others : List Mark}
    (hfence : left.map view.fence = right.map view.fence)
    (hmarks : marks.map view.mark = others.map view.mark) :
    view.result view.nodes (assemble left [] [] marks) =
      view.result view.nodes (assemble right [] [] others) := by
  rw [mark_eq_markBy] at hmarks
  rw [result_eq_resultBy, result_eq_resultBy, ← assemble_view, ← assemble_view, hfence, hmarks]

end View

end Tagmark
