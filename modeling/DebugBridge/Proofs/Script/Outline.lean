import DebugBridge.Script.Parser

/-! The outline of a script: where its function declarations begin, by its tokens alone. Between declarations
nothing matters but the variables. -/

set_option autoImplicit false

namespace DebugBridge.Script

def Token.reference? (token : Token) : Option Variable :=
  match token.kind with
  | .localVariable => some ⟨.functionLocal, token⟩
  | .globalVariable => some ⟨.global, token⟩
  | _ => none

def locals (tokens : List Token) : List Variable :=
  (tokens.filter (·.kind = .localVariable)).map (Variable.mk .functionLocal)

structure Heading where
  keyword : Token
  name : Token
  opening : Token
  between : List Token
  closing : Token
  isKeyword : keyword.isKeyword "function" = true
  isName : name.kind = .identifier
  isOpening : opening.isPunctuation "(" = true
  stays : ∀ token ∈ between, token.isPunctuation ")" = false
  isClosing : closing.isPunctuation ")" = true

namespace Heading

def tokens (h : Heading) : List Token := h.keyword :: h.name :: h.opening :: (h.between ++ [h.closing])

/-- Global variables are no parameters. -/
def parameters (h : Heading) : List Variable := locals h.between

def read? : List Token → Option (Heading × List Token)
  | keyword :: name :: opening :: rest =>
    if begins : keyword.isKeyword "function" = true ∧ name.kind = .identifier ∧ opening.isPunctuation "(" = true then
      match found : rest.dropWhile fun token => ! token.isPunctuation ")" with
      | closing :: after =>
        some
          ({ keyword := keyword
             name := name
             opening := opening
             between := rest.takeWhile fun token => ! token.isPunctuation ")"
             closing := closing
             isKeyword := begins.1
             isName := begins.2.1
             isOpening := begins.2.2
             stays := fun token member => by
               simpa using List.all_eq_true.mp List.all_takeWhile token member
             isClosing := by
               have kept := List.head?_dropWhile_not (fun token => ! token.isPunctuation ")") rest
               rw [found] at kept
               simpa using kept },
            after)
      | [] => none
    else none
  | _ => none

theorem tokens_read? {text after : List Token} {h : Heading} (found : read? text = some (h, after)) :
    text = h.tokens ++ after := by
  unfold read? at found
  split at found
  · split at found
    · split at found
      · next keyword name opening rest _ _ closing after' same =>
        obtain ⟨rfl, rfl⟩ := Prod.mk.inj (Option.some.inj found)
        simp only [tokens, List.cons_append, List.append_assoc, List.nil_append, ← same,
          List.takeWhile_append_dropWhile]
      · cases found
    · cases found
  · cases found

/-- Whatever stands between the parentheses, a heading ends where they are closed. -/
theorem exists_read? {keyword name opening : Token} {rest : List Token}
    (isKeyword : keyword.isKeyword "function" = true) (isName : name.kind = .identifier)
    (isOpening : opening.isPunctuation "(" = true)
    (closes : ∃ token ∈ rest, token.isPunctuation ")" = true) :
    ∃ h after, read? (keyword :: name :: opening :: rest) = some (h, after) := by
  unfold read?
  simp only [isKeyword, isName, isOpening, and_self, dite_true]
  split
  · exact ⟨_, _, rfl⟩
  · next unclosed =>
    obtain ⟨token, member, isClosing⟩ := closes
    have all := List.takeWhile_append_dropWhile (p := fun token : Token => ! token.isPunctuation ")") (l := rest)
    rw [unclosed, List.append_nil] at all
    rw [← all] at member
    have stays := List.all_eq_true.mp List.all_takeWhile token member
    rw [isClosing] at stays
    cases stays

end Heading

inductive Place where
  | boundary
  | within (depth : Nat)

/-- Semicolons and braces separate statements, except in parentheses. -/
def Place.next (place : Place) (token : Token) : Place :=
  let depth := match place with
    | .boundary => 0
    | .within depth => depth
  if token.kind = .punctuation then
    if depth = 0 ∧ token.lexeme ∈ [";", "\x7b", "\x7d"] then .boundary
    else if token.lexeme = "(" then .within (depth + 1)
    else if token.lexeme = ")" then .within (depth - 1)
    else .within depth
  else .within depth

inductive Segment where
  | heading (h : Heading)
  | single (token : Token)

namespace Segment

def tokens : Segment → List Token
  | .heading h => h.tokens
  | .single token => [token]

/-- What a walk over the statements should come upon. -/
def visits : Segment → List Visit
  | .heading h => .function (Reader.headOf none h.name h.parameters) :: h.parameters.map .variable
  | .single token => token.reference?.toList.map .variable

end Segment

def Place.heading? : Place → List Token → Option (Heading × List Token)
  | .boundary, text => Heading.read? text
  | .within _, _ => none

theorem Place.tokens_heading? {place : Place} {text after : List Token} {h : Heading}
    (found : place.heading? text = some (h, after)) : text = h.tokens ++ after := by
  cases place with
  | boundary => exact Heading.tokens_read? found
  | within depth => cases found

def outline (place : Place) (text : List Token) : List Segment :=
  match text with
  | [] => []
  | token :: rest =>
    match _found : place.heading? (token :: rest) with
    | some (h, after) => .heading h :: outline (.within 0) after
    | none => .single token :: outline (place.next token) rest
termination_by text.length
decreasing_by
  · rw [Place.tokens_heading? _found, Heading.tokens]
    simp
    omega
  · simp

theorem tokens_outline (place : Place) (text : List Token) :
    (outline place text).flatMap Segment.tokens = text := by
  fun_induction outline place text with
  | case1 => rfl
  | case2 place token rest h after found ih =>
    rw [List.flatMap_cons, ih, Segment.tokens, ← Place.tokens_heading? found]
  | case3 place token rest _ ih => rw [List.flatMap_cons, ih, Segment.tokens, List.singleton_append]

end DebugBridge.Script
