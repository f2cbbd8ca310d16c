import DebugBridge.Json.Reader
import DebugBridge.Proofs.Json.Lexemes

/-! The compact text of a value reads back as the value. -/

set_option autoImplicit false

namespace DebugBridge.Json

open Text.Utf8 (encodeChars)

mutual

def depth : Json → Nat
  | .array items => depthOfItems items + 1
  | .object members => depthOfMembers members + 1
  | _ => 0

def depthOfItems : List Json → Nat
  | [] => 0
  | first :: rest => max first.depth (depthOfItems rest)

def depthOfMembers : List (String × Json) → Nat
  | [] => 0
  | (_, value) :: rest => max value.depth (depthOfMembers rest)

end

/-! ## Members in order -/

def insertAll (done members : List (String × Json)) : List (String × Json) :=
  members.foldl (fun done (key, value) => insertMember key value done) done

theorem insertAll_cons (done : List (String × Json)) (key : String) (value : Json) (rest : List (String × Json)) :
    insertAll done ((key, value) :: rest) = insertAll (insertMember key value done) rest :=
  rfl

theorem insertMember_last {key : String} {value : Json} {members : List (String × Json)}
    (last : ∀ k ∈ members.map Prod.fst, k < key) : insertMember key value members = members ++ [(key, value)] := by
  induction members with
  | nil => rfl
  | cons member rest ih =>
    obtain ⟨k, v⟩ := member
    rw [List.map_cons, List.forall_mem_cons] at last
    have before : ¬ key < k := String.lt_asymm last.1
    have other : key ≠ k := by
      rintro rfl
      exact String.lt_irrefl _ last.1
    simp only [insertMember, if_neg before, if_neg other, ih last.2, List.cons_append]

theorem insertAll_ascending {done members : List (String × Json)}
    (ascending : ((done ++ members).map Prod.fst).Pairwise (· < ·)) : insertAll done members = done ++ members := by
  induction members generalizing done with
  | nil => exact (List.append_nil done).symm
  | cons member rest ih =>
    obtain ⟨key, value⟩ := member
    have last : ∀ k ∈ done.map Prod.fst, k < key := by
      rw [List.map_append, List.pairwise_append] at ascending
      exact fun k known => ascending.2.2 k known key (by simp)
    rw [insertAll_cons, insertMember_last last, ih, List.append_assoc, List.singleton_append]
    rwa [List.append_assoc]

namespace Reader

/-! ## Tokens of a value -/

def run (r : Reader) (text : List Lexeme) : Except Fault Reader := text.foldlM step r

theorem run_cons {r next : Reader} {lexeme : Lexeme} (read : r.step lexeme = .ok next) (rest : List Lexeme) :
    r.run (lexeme :: rest) = next.run rest := by
  rw [run, List.foldlM_cons, read]
  rfl

theorem run_congr {r r' : Reader} {lexeme : Lexeme} (same : r.step lexeme = r'.step lexeme) (rest : List Lexeme) :
    r.run (lexeme :: rest) = r'.run (lexeme :: rest) := by
  rw [run, run, List.foldlM_cons, List.foldlM_cons, same]

theorem tokens_cons (value : Json) : ∃ first rest, value.tokens = first :: rest ∧ first ≠ .closeBracket := by
  cases value <;> exact ⟨_, _, rfl, fun same => by cases same⟩

theorem run_firstItem {outer : List Container} {items : List Json} (nonempty : items ≠ []) (rest : List Lexeme) :
    run ⟨.firstItem, outer⟩ (tokensOfItems items ++ rest) = run ⟨.value, outer⟩ (tokensOfItems items ++ rest) := by
  have front : ∃ first more, tokensOfItems items = first :: more ∧ first ≠ .closeBracket := by
    match items with
    | [last] => exact tokens_cons last
    | value :: second :: later =>
      obtain ⟨first, more, shown, other⟩ := tokens_cons value
      exact ⟨first, _, by rw [tokensOfItems, shown, List.cons_append], other⟩
  obtain ⟨first, more, shown, other⟩ := front
  rw [shown, List.cons_append]
  apply run_congr
  cases first <;> first | rfl | exact absurd rfl other

theorem run_firstKey {outer : List Container} {members : List (String × Json)} (nonempty : members ≠ [])
    (rest : List Lexeme) :
    run ⟨.firstKey, outer⟩ (tokensOfMembers members ++ rest) =
      run ⟨.key [], outer⟩ (tokensOfMembers members ++ rest) := by
  match members with
  | [(key, value)] => exact run_congr rfl _
  | (key, value) :: second :: later => exact run_congr rfl _

theorem run_key {outer : List Container} (done : List (String × Json)) (key : String) (rest : List Lexeme) :
    run ⟨.key done, outer⟩ (.string key :: .colon :: rest) = run ⟨.value, .object done key :: outer⟩ rest :=
  (run_cons rfl _).trans (run_cons rfl rest)

theorem run_array {outer : List Container} {items : List Json} {rest : List Lexeme}
    (room : outer.length + 1 < depthLimit)
    (inner : items ≠ [] → run ⟨.value, .array [] :: outer⟩ (tokensOfItems items ++ .closeBracket :: rest) =
      run ⟨.separator (.array items), outer⟩ rest) :
    run ⟨.value, outer⟩ ((array items).tokens ++ rest) = run ⟨.separator (.array items), outer⟩ rest := by
  have opens : step ⟨.value, outer⟩ .openBracket = .ok ⟨.firstItem, .array [] :: outer⟩ := if_pos room
  rw [tokens, List.cons_append, List.append_assoc, List.singleton_append, run_cons opens]
  by_cases empty : items = []
  · rw [empty]
    exact run_cons rfl rest
  · rw [run_firstItem empty, inner empty]

theorem run_object {outer : List Container} {members : List (String × Json)} {rest : List Lexeme}
    (room : outer.length + 1 < depthLimit)
    (inner : members ≠ [] → run ⟨.key [], outer⟩ (tokensOfMembers members ++ .closeBrace :: rest) =
      run ⟨.separator (.object (insertAll [] members)), outer⟩ rest) :
    run ⟨.value, outer⟩ ((object members).tokens ++ rest) =
      run ⟨.separator (.object (insertAll [] members)), outer⟩ rest := by
  have opens : step ⟨.value, outer⟩ .openBrace = .ok ⟨.firstKey, outer⟩ := if_pos room
  rw [tokens, List.cons_append, List.append_assoc, List.singleton_append, run_cons opens]
  by_cases empty : members = []
  · rw [empty]
    exact run_cons rfl rest
  · rw [run_firstKey empty, inner empty]

mutual

theorem run_value {value : Json} {outer : List Container} (plain : value.Plain)
    (room : outer.length + value.depth < depthLimit) (rest : List Lexeme) :
    run ⟨.value, outer⟩ (value.tokens ++ rest) = run ⟨.separator value, outer⟩ rest := by
  match value with
  | .null | .boolean b | .integer i | .string text => exact run_cons rfl rest
  | .array items =>
    rw [depth] at room
    exact run_array (by omega) fun some => run_items some plain (by omega) rest
  | .object members =>
    rw [depth] at room
    have ordered : insertAll [] members = members := insertAll_ascending plain.1
    have read : run ⟨.value, outer⟩ ((object members).tokens ++ rest) =
        run ⟨.separator (.object (insertAll [] members)), outer⟩ rest :=
      run_object (by omega) fun some => run_members some plain.2 (by omega) rest
    rwa [ordered] at read

theorem run_items {items done : List Json} {outer : List Container} (nonempty : items ≠ [])
    (plain : PlainItems items) (room : outer.length + 1 + depthOfItems items < depthLimit) (rest : List Lexeme) :
    run ⟨.value, .array done :: outer⟩ (tokensOfItems items ++ .closeBracket :: rest) =
      run ⟨.separator (.array (done.reverse ++ items)), outer⟩ rest := by
  match items with
  | [last] =>
    rw [depthOfItems] at room
    rw [tokensOfItems, run_value plain.1 (by simp; omega)]
    refine (run_cons rfl rest).trans ?_
    rw [List.reverse_cons]
  | first :: second :: later =>
    rw [depthOfItems] at room
    rw [tokensOfItems, List.append_assoc, run_value plain.1 (by simp; omega)]
    refine (run_cons rfl _).trans ?_
    refine (run_items (List.cons_ne_nil second later) plain.2 (by omega) rest).trans ?_
    rw [List.reverse_cons, List.append_assoc, List.singleton_append]

theorem run_members {members done : List (String × Json)} {outer : List Container} (nonempty : members ≠ [])
    (plain : PlainMembers members) (room : outer.length + 1 + depthOfMembers members < depthLimit)
    (rest : List Lexeme) :
    run ⟨.key done, outer⟩ (tokensOfMembers members ++ .closeBrace :: rest) =
      run ⟨.separator (.object (insertAll done members)), outer⟩ rest := by
  match members with
  | [(key, value)] =>
    rw [depthOfMembers] at room
    rw [tokensOfMembers, List.cons_append, List.cons_append, run_key, run_value plain.1 (by simp; omega)]
    exact run_cons rfl rest
  | (key, value) :: second :: later =>
    rw [depthOfMembers] at room
    rw [tokensOfMembers, List.cons_append, List.cons_append, List.append_assoc, run_key,
      run_value plain.1 (by simp; omega)]
    refine (run_cons rfl _).trans ?_
    exact run_members (List.cons_ne_nil second later) plain.2 (by omega) rest

end

end Reader

theorem parse_split {octets : List UInt8} {text : List Lexeme} {value : Json}
    (split : lexemes (octets ++ []) = text ++ lexemes [])
    (read : ∀ rest, Reader.run ⟨.value, []⟩ (text ++ rest) = Reader.run ⟨.separator value, []⟩ rest) :
    parse octets = .ok value := by
  rw [List.append_nil, lexemes_nil] at split
  have whole : (lexemes octets).foldlM Reader.step Reader.initial = .ok ⟨.separator value, []⟩ := by
    rw [split]
    exact read []
  rw [parse, whole]
  rfl

/-- Whatever the order in which members are written, they are read into that of their keys. -/
theorem parse_members {members : List (String × Json)} (plain : PlainMembers members)
    (room : depthOfMembers members + 1 < Reader.depthLimit) :
    parse (Text.Utf8.encode (object members).text) = .ok (ofMembers members) := by
  rw [Text.Utf8.encode, text, String.toList_ofList]
  apply parse_split (lexemes_object (lexemes_renderMembers plain (endsNumber_cons (by decide) [])))
  intro rest
  exact Reader.run_object (by simp; omega) fun some => Reader.run_members some plain (by simp; omega) rest

theorem parse_text {value : Json} (plain : value.Plain) (room : value.depth < Reader.depthLimit) :
    parse (Text.Utf8.encode value.text) = .ok value := by
  rw [Text.Utf8.encode, text, String.toList_ofList]
  exact parse_split (lexemes_render plain (by simp [EndsNumber])) (Reader.run_value plain (by simpa using room))

end DebugBridge.Json
