import CallAtlas.Proofs.Source.Heads

/-!
# Where functions stand

The head of a declaration, its body and the calls in the body are found by walks of their own, and
each place is computed from what a walk leaves of the text. What a walk reads is a part of the text,
so the places come in the order of the text: the head, the body, the calls in it and the semicolon
(`body_of_outline`, `exists_offsets_of_callSites`). The walk along the heads goes on behind the
semicolon of a declaration, whatever becomes of the function; hence the extents of the functions
lie one behind another (`exists_extents_of_declarationsFrom`).

Nothing more is needed about lines than that they grow with offsets. `readModule_ordered` reads the
order of lines off the extents, for every text that is read.
-/

namespace CallAtlas.Source

variable {α : Type}

/-! ## Heads of calls -/

theorem leavesEnd_functionTail : Scan.LeavesEnd functionTail := by
  intro s
  induction s with
  | nil =>
    intro tail rest read
    cases read
    exact List.suffix_rfl
  | cons c s ih =>
    intro tail rest read
    rw [functionTail] at read
    split at read
    next =>
      rcases Option.map_eq_some_iff.1 read with ⟨⟨more, left⟩, reads, same⟩
      cases same
      exact (ih more left reads).trans (List.suffix_cons c s)
    next =>
      cases read
      exact List.suffix_rfl

/-- The head of a call leaves the end of the text. -/
theorem leavesEnd_callHead (before : Option Char) : (callHead before).LeavesEnd := by
  unfold callHead
  split
  next =>
    intro s a rest read
    cases read
  next =>
    refine (Scan.leavesEnd_char isNameStart).bind fun _ => ?_
    refine (Scan.leavesEnd_run Text.isNameChar).bind fun _ => ?_
    refine (Scan.leavesEnd_literal [':']).bind fun _ => ?_
    refine (Scan.leavesEnd_char isNameStart).bind fun _ => ?_
    refine leavesEnd_functionTail.bind fun _ => ?_
    refine Scan.LeavesEnd.bind ?_ fun _ => Scan.leavesEnd_pure _
    apply Scan.LeavesEnd.optional
    exact (Scan.leavesEnd_literal ['#']).bind fun _ => Scan.leavesEnd_someRun Text.isDecimal

/-- The line on which an occurrence starts. -/
theorem Occurrence.In.lineAfter {p : Option Char → Scan α} {s : List Char} {o : Occurrence α}
    (inText : o.In p s) : Text.lineAfter o.before = Text.lineOf s o.offset := by
  have behind := @Text.lineOf_add s 0 o.before (by rw [List.drop_zero]; exact inText.starts)
  unfold Occurrence.offset
  rw [Nat.zero_add] at behind
  rw [behind]
  unfold Text.lineOf Text.lineAfter
  rw [List.take_zero, List.count_nil]
  omega

/-! ## Extents -/

/-- A stretch of a text: the offsets of its first and its last character. -/
structure Extent where
  first : Nat
  last : Nat

/-- A call by a known qualifier starts at an offset of a text. No qualifier stands for the one by
which a module calls itself. -/
structure CallsAt (known : List String) (content : List Char) (offset : Nat) (c : CallSite) :
    Prop where
  line : c.line = Text.lineOf content offset
  named : c.qualifier ≠ some localQualifier
  isKnown : c.qualifier.getD localQualifier ∈ known

/-- A function takes up an extent of a text, from the word that declares it to the semicolon behind
its body. -/
structure TakesUp (known : List String) (content : List Char) (e : Extent) (f : FunctionDecl) :
    Prop where
  head : "declare".toList <+: content.drop e.first
  semicolon : content[e.last]? = some ';'
  ordered : e.first < e.last
  line : f.line = Text.lineOf content e.first
  lineEnd : f.lineEnd = Text.lineOf content e.last
  /-- The calls stand in the extent, one after another. -/
  calls : ∃ offsets : List Nat, List.Forall₂ (CallsAt known content) offsets f.calls ∧
    offsets.Pairwise (· < ·) ∧ ∀ offset ∈ offsets, e.first < offset ∧ offset < e.last

/-! ## Calls -/

theorem callSiteAt_eq_some {known : List String} {lineAfter : List Char → Nat}
    {o : Occurrence CallHead} {c : CallSite}
    (h : (callSiteAt known lineAfter o).value = .ok (some c)) :
    c.line = lineAfter o.before ∧ c.qualifier ≠ some localQualifier ∧
      c.qualifier.getD localQualifier ∈ known := by
  unfold callSiteAt at h
  dsimp only at h
  split at h
  next isKnown =>
    rw [List.contains_iff_mem] at isKnown
    rcases Checked.value_bind_eq_ok.1 h with ⟨arity, -, made⟩
    rcases Option.map_eq_some_iff.1 (Except.ok.inj made) with ⟨n, -, rfl⟩
    by_cases own : String.ofList o.value.qualifier = localQualifier
    · simp [own] at isKnown ⊢
      exact isKnown
    · simp [own, isKnown]
  next => cases h

/-- The calls in a body stand at increasing offsets of the text that holds it. -/
theorem exists_offsets_of_callSites {known : List String} {content body : List Char}
    {bodyOffset : Nat} (part : body <+: content.drop bodyOffset) {calls : List CallSite}
    (h : (callSites known (Text.lineOf content bodyOffset) body).value = .ok calls) :
    ∃ offsets : List Nat, List.Forall₂ (CallsAt known content) offsets calls ∧
      offsets.Pairwise (· < ·) ∧
      ∀ offset ∈ offsets, bodyOffset ≤ offset ∧ offset < bodyOffset + body.length := by
  rcases Checked.value_bind_eq_ok.1 h with ⟨found, results, made⟩
  cases made
  rcases Checked.exists_sublist_of_mapM results with ⟨os, some, each⟩
  have inBody : ∀ o ∈ os, o.In callHead body := fun o member =>
    in_of_mem leavesEnd_callHead (some.subset member)
  refine ⟨os.map (bodyOffset + ·.offset), ?_, ?_, ?_⟩
  · rw [List.forall₂_map_left_iff]
    refine ((List.forall₂_and_left _ _).2 ⟨inBody, each⟩).imp ?_
    rintro o c ⟨within, atPlace⟩
    rcases callSiteAt_eq_some atPlace with ⟨line, named, isKnown⟩
    exact ⟨line.trans (Text.lineOf_add (within.starts.trans part)).symm, named, isKnown⟩
  · rw [List.pairwise_map]
    refine ((pairwise_offset callHead [] body).sublist some).imp ?_
    intro o o' before
    omega
  · intro offset member
    rcases List.mem_map.1 member with ⟨o, listed, rfl⟩
    have lengths := (inBody o listed).length_eq
    have longer := List.length_pos_of_ne_nil (inBody o listed).nonempty
    omega

/-! ## Functions -/

/-- The extent of a declaration with a given head. -/
def extentOf (o : Occurrence Header) (parts : Outline) : Extent :=
  ⟨o.offset, parts.endOffset⟩

theorem eq_drop_of_suffix {t s : List α} (suffix : t <:+ s) : s.drop (s.length - t.length) = t :=
  (List.suffix_iff_eq_drop.1 suffix).symm

section Declarations

variable {content : List Char} {o : Occurrence Header} {parts : Outline}

/-- The body of a declaration lies between its head and the semicolon that ends it. -/
theorem body_of_outline (inText : o.In header content)
    (outlined : outline content o = .ok (some parts)) :
    o.offset < parts.bodyOffset ∧ parts.body <+: content.drop parts.bodyOffset ∧
      parts.bodyOffset + parts.body.length ≤ parts.endOffset ∧
      content[parts.endOffset]? = some ';' := by
  rcases outline_eq_some outlined with ⟨inside, afterParameters, afterBrace, fromBrace, cut, -,
    behind, ends, body, bodyOffset, endOffset⟩
  rcases exists_semicolon_of_fromBodyEnd? ends with ⟨after, semicolon⟩
  have inRest : afterBrace <:+ o.rest := behind.trans (cutParenthesis?_suffix cut)
  have restIn : o.rest <:+ content := ⟨o.before.reverse ++ o.text, by
    rw [List.append_assoc, inText.split]⟩
  have braceIn : fromBrace <:+ afterBrace := (fromBodyEnd?_suffix ends).1
  have semicolonIn : ';' :: after <:+ fromBrace := semicolon ▸ List.dropWhile_suffix _
  have lengths := inText.length_eq
  have longer := List.length_pos_of_ne_nil inText.nonempty
  have inRest_le := inRest.length_le
  have braceIn_le := braceIn.length_le
  have semicolonIn_le := semicolonIn.length_le
  refine ⟨by omega, ?_, ?_, ?_⟩
  · rw [bodyOffset, eq_drop_of_suffix (inRest.trans restIn), body]
    exact List.take_prefix _ _
  · rw [body, List.length_take, bodyOffset, endOffset, semicolon]
    omega
  · rw [endOffset, semicolon, ← List.head?_drop,
      eq_drop_of_suffix (((semicolonIn.trans braceIn).trans inRest).trans restIn)]
    rfl

theorem takesUp_of_functionOf {known : List String} {f : FunctionDecl}
    (inText : o.In header content) (outlined : outline content o = .ok (some parts))
    (made : (functionOf known content o parts).value = .ok f) :
    TakesUp known content (extentOf o parts) f := by
  rcases body_of_outline inText outlined with ⟨behind, body, within, semicolon⟩
  rcases Checked.value_bind_eq_ok.1 made with ⟨calls, found, same⟩
  cases same
  rcases exists_offsets_of_callSites body found with ⟨offsets, sites, increasing, inside⟩
  constructor
  case head =>
    have start : content.drop o.offset = o.text ++ o.rest := by
      have whole := inText.split
      rw [← whole, Occurrence.offset, ← List.length_reverse, List.drop_left]
    change _ <+: content.drop o.offset
    rw [start]
    exact (Canonical.opens_of_header inText.read).spelled
  case semicolon => exact semicolon
  case ordered =>
    change o.offset < parts.endOffset
    omega
  case line => exact inText.lineAfter
  case lineEnd => rfl
  case calls =>
    refine ⟨offsets, sites, increasing, fun offset member => ?_⟩
    have bounds := inside offset member
    change o.offset < offset ∧ offset < parts.endOffset
    omega

end Declarations

/-- The functions of a list of heads take up extents that lie one behind another. -/
theorem exists_extents_of_declarationsFrom {known : List String} {content : List Char}
    {path : String} {start : Nat} {seen : List String} {heads : List (Occurrence Header)}
    (inText : ∀ o ∈ heads, o.In header content) {fs : List FunctionDecl}
    (h : (declarationsFrom known content path start seen heads).value = .ok fs) :
    ∃ es, List.Forall₂ (TakesUp known content) es fs ∧ es.Pairwise (·.last < ·.first) ∧
      ∀ e ∈ es, start ≤ e.first := by
  induction heads generalizing start seen fs with
  | nil =>
    cases h
    exact ⟨[], .nil, .nil, List.forall_mem_nil _⟩
  | cons o heads ih =>
    rw [List.forall_mem_cons] at inText
    by_cases inside : o.offset < start
    case pos =>
      rw [declarationsFrom, if_pos inside] at h
      exact ih inText.2 h
    case neg =>
      rw [declarationsFrom, if_neg inside] at h
      dsimp only at h
      split at h
      next =>
        rcases Checked.value_bind_eq_ok.1 h with ⟨_, -, rest⟩
        exact ih inText.2 rest
      next =>
        rcases Checked.value_bind_eq_ok.1 h with ⟨_, -, rest⟩
        exact ih inText.2 rest
      next parts outlined =>
        rcases Checked.value_bind_eq_ok.1 h with ⟨f, made, h⟩
        have own := takesUp_of_functionOf inText.1 outlined made
        have ordered : o.offset < parts.endOffset := own.ordered
        split at h
        next =>
          -- A function that comes again leaves its extent empty.
          rcases Checked.value_bind_eq_ok.1 h with ⟨_, -, rest⟩
          rcases ih inText.2 rest with ⟨es, each, apart, behind⟩
          refine ⟨es, each, apart, fun e member => ?_⟩
          have := behind e member
          omega
        next =>
          rcases Checked.value_bind_eq_ok.1 h with ⟨gs, rest, same⟩
          cases same
          rcases ih inText.2 rest with ⟨es, each, apart, behind⟩
          refine ⟨extentOf o parts :: es, .cons own each, List.pairwise_cons.2 ⟨?_, apart⟩, ?_⟩
          · exact fun e member => behind e member
          · refine List.forall_mem_cons.2 ⟨not_lt.1 inside, fun e member => ?_⟩
            have := behind e member
            omega

/-! ## Lists side by side -/

section SideBySide

variable {β γ : Type} {R : β → γ → Prop} {xs : List β} {ys : List γ}

theorem exists_left_of_mem (each : List.Forall₂ R xs ys) {y : γ} (member : y ∈ ys) :
    ∃ x ∈ xs, R x y := by
  induction each with
  | nil => cases member
  | cons own _ ih =>
    rcases List.mem_cons.1 member with rfl | later
    · exact ⟨_, List.mem_cons_self, own⟩
    · rcases ih later with ⟨x, listed, related⟩
      exact ⟨x, List.mem_cons_of_mem _ listed, related⟩

/-- What orders one list orders the list beside it. -/
theorem pairwise_of_forall₂ {S : β → β → Prop} {T : γ → γ → Prop} (each : List.Forall₂ R xs ys)
    (ordered : xs.Pairwise S) (carries : ∀ x x' y y', R x y → R x' y' → S x x' → T y y') :
    ys.Pairwise T := by
  induction each with
  | nil => exact .nil
  | cons own rest ih =>
    rw [List.pairwise_cons] at ordered
    refine List.pairwise_cons.2 ⟨fun y member => ?_, ih ordered.2⟩
    rcases exists_left_of_mem rest member with ⟨x, listed, related⟩
    exact carries _ _ _ _ own related (ordered.1 x listed)

end SideBySide

/-! ## Lines -/

section Lines

variable {known : List String} {content : List Char} {d e : Extent} {f g : FunctionDecl}

theorem TakesUp.line_le_lineEnd (own : TakesUp known content e f) : f.line ≤ f.lineEnd := by
  rw [own.line, own.lineEnd]
  exact Text.lineOf_mono content (Nat.le_of_lt own.ordered)

theorem TakesUp.lineEnd_le (own : TakesUp known content e f) :
    f.lineEnd ≤ content.count '\n' + 1 := by
  rw [own.lineEnd]
  exact Text.lineOf_le content e.last

theorem TakesUp.lineEnd_le_line (own : TakesUp known content d f) (next : TakesUp known content e g)
    (apart : d.last < e.first) : f.lineEnd ≤ g.line := by
  rw [own.lineEnd, next.line]
  exact Text.lineOf_mono content (Nat.le_of_lt apart)

theorem TakesUp.calls_ordered (own : TakesUp known content e f) :
    (f.calls.map CallSite.line).Pairwise (· ≤ ·) ∧
      ∀ c ∈ f.calls, f.line ≤ c.line ∧ c.line ≤ f.lineEnd ∧ c.qualifier ≠ some localQualifier ∧
        c.qualifier.getD localQualifier ∈ known := by
  rcases own.calls with ⟨offsets, sites, increasing, inside⟩
  constructor
  · rw [List.pairwise_map]
    refine pairwise_of_forall₂ sites increasing fun offset next c d site site' before => ?_
    rw [site.line, site'.line]
    exact Text.lineOf_mono content (Nat.le_of_lt before)
  · intro c member
    rcases exists_left_of_mem sites member with ⟨offset, listed, site⟩
    rcases inside offset listed with ⟨behind, before⟩
    rw [own.line, own.lineEnd, site.line]
    exact ⟨Text.lineOf_mono content (Nat.le_of_lt behind),
      Text.lineOf_mono content (Nat.le_of_lt before), site.named, site.isKnown⟩

end Lines

/-! ## Modules -/

/-- How the functions of a module lie in the text that it was read from. -/
structure Ordered (content : List Char) (m : ParsedModule) : Prop where
  names : (m.functions.map FunctionDecl.qualifiedName).Nodup
  /-- The functions take up extents that lie one behind another. -/
  extents : ∃ es, List.Forall₂ (TakesUp m.knownQualifiers content) es m.functions ∧
    es.Pairwise (·.last < ·.first)
  lines : ∀ f ∈ m.functions, 1 ≤ f.line ∧ f.line ≤ f.lineEnd ∧
    f.lineEnd ≤ content.count '\n' + 1 ∧ 1 ≤ f.loc
  /-- No function starts on a line before the last one of an earlier function. -/
  apart : m.functions.Pairwise fun f g => f.lineEnd ≤ g.line
  calls : ∀ f ∈ m.functions, (f.calls.map CallSite.line).Pairwise (· ≤ ·) ∧
    ∀ c ∈ f.calls, f.line ≤ c.line ∧ c.line ≤ f.lineEnd ∧ c.qualifier ≠ some localQualifier ∧
      c.qualifier.getD localQualifier ∈ m.knownQualifiers

/-- The functions of a module that was read lie one behind another, and the calls of each lie in
it, whatever text they were read from. -/
theorem readModule_ordered {text path : String} {m : ParsedModule}
    (read : (readModule text path).value = .ok m) : Ordered (stripComments text.toList) m := by
  have names := (readModule_spec read).2.1.functions
  unfold readModule at read
  dsimp only at read
  rcases Checked.value_bind_eq_ok.1 read with ⟨named, -, read⟩
  rcases Checked.value_bind_eq_ok.1 read with ⟨clauses, -, read⟩
  rcases Checked.value_bind_eq_ok.1 read with ⟨functions, declared, made⟩
  cases made
  rcases exists_extents_of_declarationsFrom (fun o => in_of_mem leavesEnd_header) declared with
    ⟨es, each, apart, -⟩
  refine ⟨names, ⟨es, each, apart⟩, ?_, ?_, ?_⟩
  · intro f member
    rcases exists_left_of_mem each member with ⟨e, -, own⟩
    have first : 1 ≤ f.line := own.line ▸ Text.one_le_lineOf _ e.first
    have ordered := own.line_le_lineEnd
    refine ⟨first, ordered, own.lineEnd_le, ?_⟩
    unfold FunctionDecl.loc
    rw [Int.ofNat_eq_natCast, Int.ofNat_eq_natCast]
    omega
  · exact pairwise_of_forall₂ each apart fun d e f g own next => own.lineEnd_le_line next
  · intro f member
    rcases exists_left_of_mem each member with ⟨e, -, own⟩
    exact own.calls_ordered

/-- A module with two functions. Of the other declarations in it one stands in a literal and one
comes again. -/
def crowdedText : String :=
  "module namespace a=\"u\";declare function a:f()\x7b\n\"declare function a:h()\x7b\x7d;\"," ++
    "\nlocal:g()\x7d;declare function a:g()\x7b1\x7d;\ndeclare function a:f()\x7b3\x7d;"

/-- The second function starts on the line on which the first one ends. -/
theorem crowdedText_ordered : ∃ m, (readModule crowdedText "/a.xqy").value = .ok m ∧
    m.functions.map (fun f => (f.qualifiedName, f.line, f.lineEnd, f.calls.map CallSite.line)) =
      [("f#0", 1, 3, [2, 3]), ("g#0", 3, 3, [])] ∧
    Ordered (stripComments crowdedText.toList) m := by
  have shown : (readModule crowdedText "/a.xqy").value.toOption.map (fun m => m.functions.map
      fun f => (f.qualifiedName, f.line, f.lineEnd, f.calls.map CallSite.line)) =
        some [("f#0", 1, 3, [2, 3]), ("g#0", 3, 3, [])] := by
    decide +kernel
  cases read : (readModule crowdedText "/a.xqy").value with
  | error e =>
    rw [read] at shown
    cases shown
  | ok m =>
    rw [read] at shown
    exact ⟨m, rfl, Option.some.inj shown, readModule_ordered read⟩

end CallAtlas.Source
