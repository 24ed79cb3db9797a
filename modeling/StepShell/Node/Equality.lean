import StepShell.Node

/-! Equality of trees is decidable, and decided by one walk over both. -/

namespace StepShell

mutual

/-- Whether two trees are the same, spans included. -/
def Node.same : Node → Node → Bool
  | .command parts span, .command parts' span' => Node.sameAll parts parts' && span == span'
  | .word text parts quoted span, .word text' parts' quoted' span' =>
    text == text' && Node.sameAll parts parts' && quoted == quoted' && span == span'
  | .assignment text parts span, .assignment text' parts' span' =>
    text == text' && Node.sameAll parts parts' && span == span'
  | .substitution command span, .substitution command' span' =>
    Node.same command command' && span == span'
  | .parameter value span, .parameter value' span' => value == value' && span == span'
  | .pipeline parts span, .pipeline parts' span' => Node.sameAll parts parts' && span == span'
  | .pipe sign span, .pipe sign' span' => sign == sign' && span == span'
  | .list parts span, .list parts' span' => Node.sameAll parts parts' && span == span'
  | .operator op span, .operator op' span' => op == op' && span == span'
  | .compound parts redirects span, .compound parts' redirects' span' =>
    Node.sameAll parts parts' && Node.sameAll redirects redirects' && span == span'
  | .redirect kind target span, .redirect kind' target' span' =>
    kind == kind' && Node.same target target' && span == span'
  | .forLoop name items body span, .forLoop name' items' body' span' =>
    name == name' && Node.sameAll items items' && Node.same body body' && span == span'
  | .conditional clauses span, .conditional clauses' span' =>
    Clause.sameAll clauses clauses' && span == span'
  | .function name body span, .function name' body' span' =>
    name == name' && Node.same body body' && span == span'
  | .reserved word span, .reserved word' span' => word == word' && span == span'
  | _, _ => false

def Node.sameAll : List Node → List Node → Bool
  | [], [] => true
  | left :: lefts, right :: rights => Node.same left right && Node.sameAll lefts rights
  | _, _ => false

def Clause.same : Clause → Clause → Bool
  | .mk keyword (some condition) body, .mk keyword' (some condition') body' =>
    keyword == keyword' && Node.same condition condition' && Node.same body body'
  | .mk keyword none body, .mk keyword' none body' => keyword == keyword' && Node.same body body'
  | _, _ => false

def Clause.sameAll : List Clause → List Clause → Bool
  | [], [] => true
  | left :: lefts, right :: rights => Clause.same left right && Clause.sameAll lefts rights
  | _, _ => false

end

instance : BEq Node := ⟨Node.same⟩

mutual

private theorem Node.eq_of_same : ∀ left right : Node, left.same right = true → left = right
  | .command .., right => by
    cases right <;> simp [Node.same]
    exact fun parts span => ⟨Node.eq_of_sameAll _ _ parts, span⟩
  | .word .., right => by
    cases right <;> simp [Node.same]
    exact fun text parts quoted span => ⟨text, Node.eq_of_sameAll _ _ parts, quoted, span⟩
  | .assignment .., right => by
    cases right <;> simp [Node.same]
    exact fun text parts span => ⟨text, Node.eq_of_sameAll _ _ parts, span⟩
  | .substitution .., right => by
    cases right <;> simp [Node.same]
    exact fun command span => ⟨Node.eq_of_same _ _ command, span⟩
  | .parameter .., right => by cases right <;> simp [Node.same]
  | .pipeline .., right => by
    cases right <;> simp [Node.same]
    exact fun parts span => ⟨Node.eq_of_sameAll _ _ parts, span⟩
  | .pipe .., right => by cases right <;> simp [Node.same]
  | .list .., right => by
    cases right <;> simp [Node.same]
    exact fun parts span => ⟨Node.eq_of_sameAll _ _ parts, span⟩
  | .operator .., right => by cases right <;> simp [Node.same]
  | .compound .., right => by
    cases right <;> simp [Node.same]
    exact fun parts redirects span =>
      ⟨Node.eq_of_sameAll _ _ parts, Node.eq_of_sameAll _ _ redirects, span⟩
  | .redirect .., right => by
    cases right <;> simp [Node.same]
    exact fun kind target span => ⟨kind, Node.eq_of_same _ _ target, span⟩
  | .forLoop .., right => by
    cases right <;> simp [Node.same]
    exact fun name items body span =>
      ⟨name, Node.eq_of_sameAll _ _ items, Node.eq_of_same _ _ body, span⟩
  | .conditional .., right => by
    cases right <;> simp [Node.same]
    exact fun clauses span => ⟨Clause.eq_of_sameAll _ _ clauses, span⟩
  | .function .., right => by
    cases right <;> simp [Node.same]
    exact fun name body span => ⟨name, Node.eq_of_same _ _ body, span⟩
  | .reserved .., right => by cases right <;> simp [Node.same]

private theorem Node.eq_of_sameAll :
    ∀ lefts rights : List Node, Node.sameAll lefts rights = true → lefts = rights
  | [], rights => by cases rights <;> simp [Node.sameAll]
  | left :: lefts, rights => by
    cases rights <;> simp [Node.sameAll]
    exact fun head tail => ⟨Node.eq_of_same _ _ head, Node.eq_of_sameAll _ _ tail⟩

private theorem Clause.eq_of_same : ∀ left right : Clause, left.same right = true → left = right
  | .mk keyword (some condition) body, .mk keyword' condition' body' => by
    cases condition' <;> simp [Clause.same]
    exact fun keyword condition body =>
      ⟨keyword, Node.eq_of_same _ _ condition, Node.eq_of_same _ _ body⟩
  | .mk keyword none body, .mk keyword' condition' body' => by
    cases condition' <;> simp [Clause.same]
    exact fun keyword body => ⟨keyword, Node.eq_of_same _ _ body⟩

private theorem Clause.eq_of_sameAll :
    ∀ lefts rights : List Clause, Clause.sameAll lefts rights = true → lefts = rights
  | [], rights => by cases rights <;> simp [Clause.sameAll]
  | left :: lefts, rights => by
    cases rights <;> simp [Clause.sameAll]
    exact fun head tail => ⟨Clause.eq_of_same _ _ head, Clause.eq_of_sameAll _ _ tail⟩

end

mutual

private theorem Node.same_self : ∀ node : Node, node.same node = true
  | .command parts _ | .pipeline parts _ | .list parts _ => by
    simp [Node.same, Node.sameAll_self parts]
  | .word _ parts _ _ | .assignment _ parts _ => by simp [Node.same, Node.sameAll_self parts]
  | .substitution command _ => by simp [Node.same, Node.same_self command]
  | .parameter .. | .pipe .. | .operator .. | .reserved .. => by simp [Node.same]
  | .compound parts redirects _ => by
    simp [Node.same, Node.sameAll_self parts, Node.sameAll_self redirects]
  | .redirect _ target _ => by simp [Node.same, Node.same_self target]
  | .forLoop _ items body _ => by simp [Node.same, Node.sameAll_self items, Node.same_self body]
  | .conditional clauses _ => by simp [Node.same, Clause.sameAll_self clauses]
  | .function _ body _ => by simp [Node.same, Node.same_self body]

private theorem Node.sameAll_self : ∀ nodes : List Node, Node.sameAll nodes nodes = true
  | [] => by simp [Node.sameAll]
  | node :: nodes => by simp [Node.sameAll, Node.same_self node, Node.sameAll_self nodes]

private theorem Clause.same_self : ∀ clause : Clause, clause.same clause = true
  | .mk _ (some condition) body => by
    simp [Clause.same, Node.same_self condition, Node.same_self body]
  | .mk _ none body => by simp [Clause.same, Node.same_self body]

private theorem Clause.sameAll_self : ∀ clauses : List Clause, Clause.sameAll clauses clauses = true
  | [] => by simp [Clause.sameAll]
  | clause :: clauses => by
    simp [Clause.sameAll, Clause.same_self clause, Clause.sameAll_self clauses]

end

/-- The test for equal trees is exact. -/
theorem Node.same_iff (left right : Node) : left.same right = true ↔ left = right :=
  ⟨Node.eq_of_same left right, fun equal => equal ▸ Node.same_self left⟩

instance : DecidableEq Node := fun left right =>
  decidable_of_iff (left.same right = true) (Node.same_iff left right)

end StepShell
