import IdlBindings.Proofs.Definition.FormParser
import IdlBindings.Proofs.Definition.Lookahead

/-!
# Members without bindings

A member that starts with one of certain words gets no bindings, and is skipped up to the semicolon
that ends it. The brackets in it are counted without telling their shapes apart. If they are
balanced and every semicolon but the last stands inside brackets, the member is skipped exactly, and
the members around it are read as if it were not there.

The members around it can be any tokens that are read as a member when they stand alone.

## Main definitions

* `MemberTokens`: the tokens of a member
* `IsSkippable`: balanced brackets that hold all semicolons
* `SkippedTokens`: the tokens of a member without bindings
* `BodyHead`: an interface or mixin up to its body
-/
namespace IdlBindings

open IdlBindings.Parser IdlBindings.Member

/-! ## Members that stand alone -/

/-- Tokens that are read as a member when nothing follows. -/
structure MemberTokens where
  kinds : List TokenKind
  value : Option Member
  reads : Reads Member.parse kinds value []

/-- No member starts with a closing brace. -/
theorem Member.parse_closeBrace {s : TokenStream} (hs : s.peek = some (.punct .closeBrace)) :
    ∃ e, Member.parse s = .error e := by
  cases hlength : s.tokens.length <;>
    simp [Member.parse, parseStaticOrPlain, parseOperation, IdlType.parse, IdlType.parseWith,
      ExtAttr.parseList, startsSkipped, eatPunct, eatKeyword, run_bind, run_eat, hs, hlength]

namespace MemberTokens

theorem reads_append (x : MemberTokens) (rest : List TokenKind) :
    Reads Member.parse (x.kinds ++ rest) x.value rest :=
  (delimited_parse.reads_append x.reads).2 rest

theorem head?_ne_closeBrace (x : MemberTokens) (rest : List TokenKind) :
    (x.kinds ++ rest).head? ≠ some (.punct .closeBrace) := by
  intro hhead
  obtain ⟨s, hs⟩ := exists_kinds_eq (x.kinds ++ rest)
  obtain ⟨s', hrun, _⟩ := x.reads_append rest s hs
  obtain ⟨e, herror⟩ := parse_closeBrace (s := s) (by rw [Reads.head?_kinds, hs, hhead])
  cases herror.symm.trans hrun

/-- A body of members is read member by member. -/
theorem reads_parseBody (xs : List MemberTokens) (rest : List TokenKind) :
    Reads Member.parseBody (bodyTokens kinds xs ++ rest) (xs.filterMap value) rest :=
  reads_body_filterMap head?_ne_closeBrace reads_append xs rest

end MemberTokens

theorem MemberForm.reads_tokens (x : MemberForm) :
    Reads Member.parse x.tokens (some x.member) [] := by
  simpa using x.reads_parse []

/-- A form of a member stands alone. -/
def MemberForm.toMember (x : MemberForm) : MemberTokens := ⟨x.tokens, some x.member, x.reads_tokens⟩

/-! ## Members that are skipped -/

def openings (kinds : List TokenKind) : Nat := kinds.countP isOpening

def closings (kinds : List TokenKind) : Nat := kinds.countP isClosing

/-- Inside `depth` more brackets, no bracket is closed that is not open, all are closed in the end,
and every semicolon stands inside some. -/
structure SkippableIn (depth : Nat) (kinds : List TokenKind) : Prop where
  closings_le : ∀ i ≤ kinds.length, closings (kinds.take i) ≤ depth + openings (kinds.take i)
  closings_eq : closings kinds = depth + openings kinds
  semicolon_lt : ∀ i < kinds.length, kinds[i]? = some (.punct .semicolon) →
    closings (kinds.take i) < depth + openings (kinds.take i)

/-- The brackets are balanced, and no semicolon stands outside them. -/
def IsSkippable (kinds : List TokenKind) : Prop := SkippableIn 0 kinds

instance (depth : Nat) (kinds : List TokenKind) : Decidable (SkippableIn depth kinds) :=
  decidable_of_iff (_ ∧ _ ∧ _)
    ⟨fun h => ⟨h.1, h.2.1, h.2.2⟩, fun h => ⟨h.closings_le, h.closings_eq, h.semicolon_lt⟩⟩

instance : DecidablePred IsSkippable :=
  fun kinds => inferInstanceAs (Decidable (SkippableIn 0 kinds))

-- A semicolon inside brackets does not count, and any shape closes any other.
example : IsSkippable [.punct .openParen, .ident "a", .punct .semicolon, .punct .closeAngle] := by
  decide

theorem not_isClosing_of_isOpening {kind : TokenKind} (h : isOpening kind = true) :
    isClosing kind = false := by
  revert h
  cases kind with
  | punct mark => cases mark <;> simp [isOpening, isClosing]
  | _ => simp [isOpening]

namespace SkippableIn

variable {depth : Nat} {kind : TokenKind} {kinds : List TokenKind}

/-- A token moves the depth by what it adds to the counts of what follows. -/
theorem depthAfter_add (hdepth : isClosing kind = true → 0 < depth) (front : List TokenKind) :
    depthAfter depth kind + openings front + closings (kind :: front) =
      depth + openings (kind :: front) + closings front := by
  by_cases hopen : isOpening kind = true
  · have hclose := not_isClosing_of_isOpening hopen
    simp only [depthAfter, openings, closings, List.countP_cons, hopen, hclose, if_true,
      Bool.false_eq_true, if_false]
    omega
  · by_cases hclose : isClosing kind = true
    · have := hdepth hclose
      simp only [depthAfter, openings, closings, List.countP_cons, hopen, hclose, if_true,
        Bool.false_eq_true, if_false]
      omega
    · simp [depthAfter, openings, closings, hopen, hclose]

/-- A closing bracket closes one that is open. -/
theorem depth_pos (h : SkippableIn depth (kind :: kinds)) (hclose : isClosing kind = true) :
    0 < depth := by
  have hopen : isOpening kind = false := by
    by_contra hopen
    rw [not_isClosing_of_isOpening (by simpa using hopen)] at hclose
    cases hclose
  have hle := h.closings_le 1 (by simp)
  simpa [openings, closings, hopen, hclose, Nat.one_le_iff_ne_zero, Nat.pos_iff_ne_zero] using hle

/-- Behind the first token the depth is that after it. -/
theorem tail (h : SkippableIn depth (kind :: kinds)) :
    SkippableIn (depthAfter depth kind) kinds := by
  have hadd := depthAfter_add h.depth_pos
  constructor
  · intro i hi
    have hle := h.closings_le (i + 1) (Nat.succ_le_succ hi)
    rw [List.take_succ_cons] at hle
    have := hadd (kinds.take i)
    omega
  · have := h.closings_eq
    have := hadd kinds
    omega
  · intro i hi hkind
    have hlt := h.semicolon_lt (i + 1) (Nat.succ_lt_succ hi) hkind
    rw [List.take_succ_cons] at hlt
    have := hadd (kinds.take i)
    omega

/-- The first token does not end the member. -/
theorem head (h : SkippableIn depth (kind :: kinds)) :
    ¬(kind = .punct .semicolon ∧ depth = 0) := by
  rintro ⟨rfl, rfl⟩
  simpa [openings, closings] using h.semicolon_lt 0 (by simp) rfl

/-- Skipping passes over everything up to the semicolon behind it. -/
theorem skips (h : SkippableIn depth kinds) (rest : List TokenKind) :
    Skips depth (kinds ++ .punct .semicolon :: rest) rest := by
  induction kinds generalizing depth with
  | nil =>
      obtain rfl : depth = 0 := by simpa [closings, openings] using h.closings_eq.symm
      exact Skips.stop rest
  | cons kind kinds ih => exact Skips.step h.head (ih h.tail)

end SkippableIn

/-- A member without bindings: extended attributes, one of the words for it, anything with balanced
brackets and no semicolon outside them, and a semicolon. -/
structure SkippedTokens where
  attrs : AttrTokens
  word : String
  word_mem : word ∈ skippedKeywords
  content : List TokenKind
  isSkippable_content : IsSkippable content

namespace SkippedTokens

def kinds (x : SkippedTokens) : List TokenKind :=
  x.attrs.kinds ++ .ident x.word :: x.content ++ [.punct .semicolon]

theorem reads_parse (x : SkippedTokens) (rest : List TokenKind) :
    Reads Member.parse (x.kinds ++ rest) none rest := by
  have hskips : Skips 0 (.ident x.word :: (x.content ++ .punct .semicolon :: rest)) rest :=
    Skips.step (by simp) (x.isSkippable_content.skips rest)
  have hstarts : startsSkipped (some (.ident x.word)) = true := by
    simpa [startsSkipped] using x.word_mem
  simp only [kinds, List.append_assoc, List.cons_append, List.nil_append]
  refine (x.attrs.reads_append (by simp)).bind ((Reads.peek _).bind ?_)
  rw [List.head?_cons, if_pos hstarts]
  exact (reads_parseSkipped hskips).bind (Reads.pure none rest)

theorem reads_kinds (x : SkippedTokens) : Reads Member.parse x.kinds none [] := by
  simpa using x.reads_parse []

/-- What is skipped stands where a member may stand. -/
def toMember (x : SkippedTokens) : MemberTokens := ⟨x.kinds, none, x.reads_kinds⟩

end SkippedTokens

/-! ## Bodies -/

/-- A part of a body: a member as it was, or one that is put in. -/
inductive BodyPart where
  | member (x : MemberTokens)
  | skipped (x : SkippedTokens)

namespace BodyPart

def toMember : BodyPart → MemberTokens
  | member x => x
  | skipped x => x.toMember

def kinds (x : BodyPart) : List TokenKind := x.toMember.kinds

/-- The member as it was. -/
def member? : BodyPart → Option MemberTokens
  | member x => some x
  | skipped _ => none

theorem filterMap_value (parts : List BodyPart) :
    (parts.map toMember).filterMap MemberTokens.value =
      (parts.filterMap member?).filterMap MemberTokens.value := by
  induction parts with
  | nil => rfl
  | cons part parts ih =>
      cases part with
      | member x => simp only [List.map_cons, List.filterMap_cons, toMember, member?, ih]
      | skipped x =>
          simpa only [List.map_cons, List.filterMap_cons, toMember, member?,
            SkippedTokens.toMember] using ih

end BodyPart

/-- An interface or a mixin up to its body. The word after the one for an interface is no name if it
is the one for a mixin. -/
inductive BodyHead where
  | interface (attrs : AttrTokens) (isPartial : Bool) (name : String) (ne_mixin : name ≠ "mixin")
      (parent : Option String)
  | mixin (attrs : AttrTokens) (isPartial : Bool) (name : String)

namespace BodyHead

def kinds : BodyHead → List TokenKind
  | interface attrs isPartial name _ parent =>
    attrs.kinds ++ keywordIf isPartial "partial" ++ [.ident "interface", .ident name] ++
      parent.elim [] fun parent => [.punct .colon, .ident parent]
  | mixin attrs isPartial name =>
    attrs.kinds ++ keywordIf isPartial "partial" ++
      [.ident "interface", .ident "mixin", .ident name]

/-- The definition with a list of members. -/
def definition : BodyHead → List Member → Definition
  | interface attrs isPartial name _ parent, members =>
    .interface ⟨declaredName name, isPartial, parent.map declaredName, members, attrs.extAttrs⟩
  | mixin _ isPartial name, members => .mixin ⟨declaredName name, isPartial, members⟩

end BodyHead

/-- A definition with any extended attributes, the word for a partial one and its semicolon. -/
theorem AttrTokens.reads_parse (attrs : AttrTokens) (isPartial : Bool) {d : Definition}
    {kinds rest : List TokenKind} (hbracket : kinds.head? ≠ some (.punct .openBracket))
    (hpartial : kinds.head? ≠ some (.ident "partial"))
    (h : Reads (Definition.parseBody isPartial attrs.extAttrs) kinds d
      (.punct .semicolon :: rest)) :
    Reads Definition.parse (attrs.kinds ++ (keywordIf isPartial "partial" ++ kinds)) d rest := by
  refine (attrs.reads_append ?_).bind ?_
  · cases isPartial with
    | true => simp [keywordIf]
    | false => exact hbracket
  · exact (reads_keywordIf isPartial hpartial).bind
      (h.bind ((Reads.expectPunct _ _).bind (Reads.pure _ _)))

/-- An interface or mixin is read with the members of its body. -/
theorem BodyHead.reads_parse (head : BodyHead) (xs : List MemberTokens) (rest : List TokenKind) :
    Reads Definition.parse
      (head.kinds ++ (bodyTokens MemberTokens.kinds xs ++ .punct .semicolon :: rest))
      (head.definition (xs.filterMap MemberTokens.value)) rest := by
  have hbody := MemberTokens.reads_parseBody xs (.punct .semicolon :: rest)
  cases head with
  | interface attrs isPartial name ne_mixin parent =>
      simp only [kinds, List.append_assoc, List.cons_append, List.nil_append]
      apply attrs.reads_parse isPartial (by simp) (by simp)
      apply Definition.reads_parseBody (Definition.parseInterface isPartial attrs.extAttrs)
      · intro s hs
        simp [Definition.parseBody, hs]
      · refine Reads.eat_else (by simpa using ne_mixin) ((Reads.expectIdent _ _).bind ?_)
        cases parent with
        | none =>
            refine (Reads.eat_else (by simp [bodyTokens]) (Reads.pure none _)).bind ?_
            exact hbody.bind (Reads.pure _ _)
        | some parent =>
            refine (Reads.eat_then (Reads.expectIdent parent _).map).bind ?_
            exact hbody.bind (Reads.pure _ _)
  | mixin attrs isPartial name =>
      simp only [kinds, List.append_assoc, List.cons_append, List.nil_append]
      apply attrs.reads_parse isPartial (by simp) (by simp)
      apply Definition.reads_parseBody (Definition.parseInterface isPartial attrs.extAttrs)
      · intro s hs
        simp [Definition.parseBody, hs]
      · refine Reads.eat_then ((Reads.expectIdent _ _).bind ?_)
        exact hbody.bind (Reads.pure _ _)

/-- **Members without bindings do not disturb their neighbours.** An interface or mixin whose body
is made of complete members is accepted, and it is the same definition when any members without
bindings are put in anywhere between them. -/
theorem skipped_parts_change_nothing (head : BodyHead) (parts : List BodyPart)
    (rest : List TokenKind) :
    let members := parts.filterMap BodyPart.member?
    let d := head.definition (members.filterMap MemberTokens.value)
    Reads Definition.parse
        (head.kinds ++ (bodyTokens MemberTokens.kinds members ++ .punct .semicolon :: rest))
        d rest ∧
      Reads Definition.parse
        (head.kinds ++ (bodyTokens BodyPart.kinds parts ++ .punct .semicolon :: rest)) d rest := by
  intro members d
  have hparts := head.reads_parse (parts.map BodyPart.toMember) rest
  have htokens : bodyTokens MemberTokens.kinds (parts.map BodyPart.toMember) =
      bodyTokens BodyPart.kinds parts := by
    rw [bodyTokens, List.flatMap_map]
    rfl
  rw [htokens, BodyPart.filterMap_value] at hparts
  exact ⟨head.reads_parse members rest, hparts⟩

/-- An operation, with an attributed constant before it and a serializer with a body behind it. -/
theorem skipped_parts_change_nothing_flush :
    Reads Definition.parse
        [.ident "interface", .ident "F", .punct .openBrace, .ident "undefined", .ident "_flush",
          .punct .openParen, .punct .closeParen, .punct .semicolon, .punct .closeBrace,
          .punct .semicolon]
        (.interface ⟨"F", false, none, [.operation ⟨"flush", [], none, false, []⟩], []⟩) [] ∧
      Reads Definition.parse
        [.ident "interface", .ident "F", .punct .openBrace, .punct .openBracket, .ident "X",
          .punct .closeBracket, .ident "const", .ident "long", .ident "A", .punct .equals,
          .number "1", .punct .semicolon, .ident "undefined", .ident "_flush", .punct .openParen,
          .punct .closeParen, .punct .semicolon, .ident "stringifier", .punct .openBrace,
          .punct .semicolon, .punct .closeBrace, .punct .semicolon, .punct .closeBrace,
          .punct .semicolon]
        (.interface ⟨"F", false, none, [.operation ⟨"flush", [], none, false, []⟩], []⟩) [] := by
  have hnone : Reads ExtAttr.parseList [] [] [] := ExtAttr.reads_no_list (by simp)
  have hattr : Reads ExtAttr.parseList
      [.punct .openBracket, .ident "X", .punct .closeBracket] [⟨"X", none⟩] [] :=
    @ExtAttrForm.reads_parseList [] [⟨⟨⟨"X", rfl⟩, false⟩, none⟩] (by simp)
  let flush : MemberForm := .operation false none ⟨"flush", rfl⟩ [] []
  have hchange := skipped_parts_change_nothing
    (.interface ⟨[], [], hnone⟩ false "F" (by decide) none)
    [.skipped ⟨⟨_, _, hattr⟩, "const", by decide,
        [.ident "long", .ident "A", .punct .equals, .number "1"], by decide⟩,
      .member flush.toMember,
      .skipped ⟨⟨[], [], hnone⟩, "stringifier", by decide,
        [.punct .openBrace, .punct .semicolon, .punct .closeBrace], by decide⟩] []
  exact hchange

end IdlBindings
