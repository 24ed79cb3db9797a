import StepShell.Proofs.Script.Formed

/-! The bodies that parsed scripts give to their functions, wherever in the script they do it. -/

namespace StepShell

namespace Node

/-- The nodes right below a node, in the order in which they stand in it. -/
def children : Node → List Node
  | .command parts _ | .word _ parts _ _ | .assignment _ parts _ | .pipeline parts _
  | .list parts _ => parts
  | .substitution inner _ => [inner]
  | .compound parts redirects _ => parts ++ redirects
  | .redirect _ target _ => [target]
  | .forLoop _ items body _ => items ++ [body]
  | .conditional clauses _ =>
    clauses.flatMap fun clause => clause.condition.toList ++ [clause.body]
  | .function _ body _ => [body]
  | .parameter .. | .pipe .. | .operator .. | .reserved .. => []

/-- The first node stands somewhere in the second. -/
inductive Within : Node → Node → Prop where
  | self {node : Node} : Within node node
  | inside {inner child outer : Node} (member : child ∈ outer.children)
      (within : Within inner child) : Within inner outer

end Node

/-- A script defines a function with this body, maybe deep inside its commands. -/
def Script.Defines (body : Node) : Prop :=
  ∃ text nodes, Script.parse text = .ok nodes ∧ ∃ root ∈ nodes, ∃ name span,
    Node.Within (.function name body span) root

/-- Below a formed node stand formed nodes, and the words that open and close a group. -/
theorem Formed.child {place : Place} {outer inner : Node} (formed : Formed place outer)
    (member : inner ∈ outer.children) :
    (∃ place, Formed place inner) ∨ ∃ word span, inner = .reserved word span := by
  induction formed with
  | parameter | pipe | operator => cases member
  | substitution command =>
    obtain rfl := List.mem_singleton.mp member
    exact .inl ⟨_, command⟩
  | word lexed made pieces => exact .inl ⟨_, pieces _ member⟩
  | positionals =>
    obtain rfl := List.mem_singleton.mp member
    exact .inl ⟨_, .parameter⟩
  | redirect leads =>
    obtain rfl := List.mem_singleton.mp member
    exact .inl ⟨_, leads⟩
  | argument _ ih | redirection _ ih | stage _ ih | entry _ ih => exact ih member
  | assignment lexed made pieces form => exact .inl ⟨_, pieces _ member⟩
  | command each | pipeline each | list each => exact .inl ⟨_, each _ member⟩
  | group pair inside each =>
    rcases List.mem_append.mp member with part | redirect
    · simp only [List.mem_cons, List.not_mem_nil, or_false] at part
      rcases part with rfl | rfl | rfl
      · exact .inr ⟨_, _, rfl⟩
      · exact .inl ⟨_, inside⟩
      · exact .inr ⟨_, _, rfl⟩
    · exact .inl ⟨_, each _ redirect⟩
  | forLoop each inside =>
    rcases List.mem_append.mp member with item | body
    · exact .inl ⟨_, each _ item⟩
    · obtain rfl := List.mem_singleton.mp body
      exact .inl ⟨_, inside⟩
  | conditional conditions bodies =>
    obtain ⟨⟨keyword, condition, body⟩, present, member⟩ := List.mem_flatMap.mp member
    rcases List.mem_append.mp member with decided | chosen
    · obtain rfl := Option.mem_toList.mp decided
      exact .inl ⟨_, conditions _ _ _ present⟩
    · obtain rfl := List.mem_singleton.mp chosen
      exact .inl ⟨_, bodies _ present⟩
  | function inside =>
    obtain rfl := List.mem_singleton.mp member
    exact .inl ⟨_, inside⟩

theorem Formed.functionBody {place : Place} {name : String} {body : Node} {span : Span}
    (formed : Formed place (.function name body span)) : Formed .command body := by
  generalize same : Node.function name body span = node at formed
  induction formed with
  | function inside =>
    cases same
    exact inside
  | argument _ ih | redirection _ ih | stage _ ih | entry _ ih => exact ih same
  | _ => cases same

theorem Formed.groupBody {place : Place} {opening closing : String} {body : Node}
    {redirects : List Node} {openSpan closeSpan span : Span}
    (formed : Formed place (.compound [.reserved opening openSpan, body,
      .reserved closing closeSpan] redirects span)) : Formed .command body := by
  generalize same : Node.compound _ redirects span = node at formed
  induction formed with
  | group pair inside each =>
    cases same
    exact inside
  | argument _ ih | redirection _ ih | stage _ ih | entry _ ih => exact ih same
  | _ => cases same

/-- Whatever stands in a formed node, but for the words around a group, is formed. -/
theorem Formed.within {place : Place} {inner outer : Node} (formed : Formed place outer)
    (within : Node.Within inner outer) :
    (∃ place, Formed place inner) ∨ ∃ word span, inner = .reserved word span := by
  induction within generalizing place with
  | self => exact .inl ⟨place, formed⟩
  | inside member within ih =>
    rcases formed.child member with ⟨place, formed⟩ | ⟨word, span, rfl⟩
    · exact ih formed
    · cases within with
      | self => exact .inr ⟨word, span, rfl⟩
      | inside absent => cases absent

/-- A function body that some script gives is a command of a parsed script. -/
theorem Script.Defines.formed {body : Node} (defines : Script.Defines body) :
    Formed .command body := by
  obtain ⟨text, nodes, parsed, root, member, name, span, within⟩ := defines
  rcases (Script.parse_formed parsed root member).within within with ⟨_, formed⟩ | ⟨_, _, same⟩
  · exact formed.functionBody
  · cases same

namespace Script

/-- The commands of a script, none if it has an error. -/
def nodes (text : String) : List Node :=
  (parse text).toOption.getD []

theorem parse_eq_nodes {text : String} (ok : (parse text).isOk = true) :
    parse text = .ok (nodes text) := by
  unfold nodes
  cases parsed : parse text with
  | error => simp [parsed, Except.isOk, Except.toBool] at ok
  | ok => rfl

end Script

end StepShell
