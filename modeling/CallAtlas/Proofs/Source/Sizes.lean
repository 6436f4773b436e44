import CallAtlas.Proofs.Source.Extents

/-!
# How large the numbers of a module are

The lines, lengths and counts that are read off a text are no larger than the text is long, or
larger by one. For lines that is plain. Functions and calls are counted by the offsets at which they
start: these are distinct and lie in the text (`length_le_of_increasing`).
-/

namespace CallAtlas

/-- The numbers of a module are at most `size`, those of lines at most one more. -/
structure ParsedModule.Within (size : Nat) (m : ParsedModule) : Prop where
  lineCount : m.lineCount ≤ size
  functionCount : m.functions.length ≤ size
  line : ∀ f ∈ m.functions, f.line ≤ size + 1
  loc : ∀ f ∈ m.functions, 1 ≤ f.loc ∧ f.loc ≤ Int.ofNat size + 1
  callCount : ∀ f ∈ m.functions, f.calls.length ≤ size

theorem ParsedModule.Within.mono {size larger : Nat} {m : ParsedModule} (within : m.Within size)
    (le : size ≤ larger) : m.Within larger where
  lineCount := within.lineCount.trans le
  functionCount := within.functionCount.trans le
  line f member := (within.line f member).trans (Nat.succ_le_succ le)
  loc f member := by
    have bounds := within.loc f member
    simp only [Int.ofNat_eq_natCast] at bounds ⊢
    omega
  callCount f member := (within.callCount f member).trans le

/-- Numbers below a bound that increase are no more than the bound. -/
theorem length_le_of_increasing {ns : List Nat} {bound : Nat} (increasing : ns.Pairwise (· < ·))
    (inside : ∀ n ∈ ns, n < bound) : ns.length ≤ bound := by
  have distinct : ns.Nodup := increasing.imp Nat.ne_of_lt
  have among : ns ⊆ List.range bound := fun n member => List.mem_range.2 (inside n member)
  have fewer := (List.subperm_of_subset distinct among).length_le
  rwa [List.length_range] at fewer

theorem Text.length_linesFrom_le (line s : List Char) :
    (linesFrom line s).length ≤ line.length + s.length := by
  fun_induction linesFrom line s with
  | case1 => exact Nat.zero_le _
  | case2 line nonempty => exact List.length_pos_of_ne_nil (by simpa using nonempty)
  | case3 line s ih =>
    simp only [List.length_cons, List.length_nil] at ih ⊢
    omega
  | case4 line c s _ ends ih =>
    simp only [List.length_cons, List.length_nil] at ih ⊢
    omega
  | case5 line c s _ inside ih =>
    simp only [List.length_cons] at ih ⊢
    omega

/-- A text has at most as many lines as characters. -/
theorem Text.length_lines_le (s : List Char) : (lines s).length ≤ s.length := by
  have whole := length_linesFrom_le [] s
  rwa [List.length_nil, Nat.zero_add] at whole

namespace Source

variable {known : List String} {content : List Char} {e : Extent} {f : FunctionDecl}

theorem TakesUp.last_lt (own : TakesUp known content e f) : e.last < content.length :=
  (List.getElem?_eq_some_iff.1 own.semicolon).1

/-- A function has no more calls than the text has characters. -/
theorem TakesUp.length_calls_le (own : TakesUp known content e f) :
    f.calls.length ≤ content.length := by
  rcases own.calls with ⟨offsets, sites, increasing, inside⟩
  rw [← sites.length_eq]
  refine length_le_of_increasing increasing fun offset member => ?_
  exact (inside offset member).2.trans own.last_lt

/-- A text holds no more functions than characters. -/
theorem Ordered.length_functions_le {m : ParsedModule} (ordered : Ordered content m) :
    m.functions.length ≤ content.length := by
  rcases ordered.extents with ⟨es, each, apart⟩
  have inside : ∀ e ∈ es, e.first < e.last ∧ e.last < content.length := by
    intro e member
    rcases exists_left_of_mem each.flip member with ⟨f, -, own⟩
    exact ⟨own.ordered, own.last_lt⟩
  rw [← each.length_eq, ← List.length_map Extent.first]
  refine length_le_of_increasing ?_ fun first member => ?_
  · rw [List.pairwise_map]
    refine apart.imp_of_mem fun listed _ before => ?_
    exact (inside _ listed).1.trans before
  · rcases List.mem_map.1 member with ⟨e, listed, rfl⟩
    exact (inside e listed).1.trans (inside e listed).2

theorem lineCount_of_readModule {text path : String} {m : ParsedModule}
    (read : (readModule text path).value = .ok m) :
    m.lineCount = (Text.lines text.toList).length := by
  unfold readModule at read
  dsimp only at read
  rcases Checked.value_bind_eq_ok.1 read with ⟨named, -, read⟩
  rcases Checked.value_bind_eq_ok.1 read with ⟨clauses, -, read⟩
  rcases Checked.value_bind_eq_ok.1 read with ⟨functions, -, made⟩
  cases made
  rfl

/-- The numbers of a module that was read are bounded by the length of the text. -/
theorem readModule_within {text path : String} {m : ParsedModule}
    (read : (readModule text path).value = .ok m) : m.Within text.length := by
  have ordered := readModule_ordered read
  have stripped := length_stripComments_le text.toList
  rw [String.length_toList] at stripped
  have breaks : (stripComments text.toList).count '\n' ≤ text.length :=
    List.count_le_length.trans stripped
  constructor
  case lineCount =>
    rw [lineCount_of_readModule read, ← String.length_toList]
    exact Text.length_lines_le text.toList
  case functionCount => exact ordered.length_functions_le.trans stripped
  case line =>
    intro f member
    have bounds := ordered.lines f member
    omega
  case loc =>
    intro f member
    have bounds := ordered.lines f member
    refine ⟨bounds.2.2.2, ?_⟩
    unfold FunctionDecl.loc
    simp only [Int.ofNat_eq_natCast]
    omega
  case callCount =>
    intro f member
    rcases ordered.extents with ⟨es, each, -⟩
    rcases exists_left_of_mem each member with ⟨e, -, own⟩
    exact own.length_calls_le.trans stripped

end Source
end CallAtlas
