import Rulebook.Term.Basic

/-!
# Unfolding terms into data

When metadata and definitions are shown as data, nodes and frozen records inside them are shown as
mappings of their parts.
-/

namespace Rulebook

mutual

/-- A term with mappings in place of nodes and frozen records. -/
def Term.unfold : Term → Term
  | .list xs => .list (Term.unfoldAll xs)
  | .tuple xs => .tuple (Term.unfoldAll xs)
  | .mapping es => .mapping (Term.unfoldEntries es)
  | .record t es => if t.frozen then .mapping (Term.unfoldEntries es) else .record t es
  | .variable name => .mapping [(.str "name", .str name)]
  | .application f xs =>
    .mapping [(.str "operator", f.unfold), (.str "operands", .list (Term.unfoldAll xs))]
  | .lambda params body =>
    .mapping [(.str "params", .list (params.map Term.str)), (.str "body", body.unfold)]
  | .conditional p c a =>
    .mapping [(.str "predicate", p.unfold), (.str "consequent", c.unfold),
      (.str "alternative", a.unfold)]
  | .assignment name value =>
    .mapping [(.str "target_name", .str name), (.str "value", value.unfold)]
  | .definition name value =>
    .mapping [(.str "target_name", .str name), (.str "value", value.unfold)]
  | .sequence xs => .mapping [(.str "expressions", .list (Term.unfoldAll xs))]
  | .quoted value => .mapping [(.str "value", value.unfold)]
  | .mystery => .mapping []
  | other => other
termination_by structural t => t

def Term.unfoldAll : List Term → List Term
  | [] => []
  | x :: xs => x.unfold :: Term.unfoldAll xs
termination_by structural ts => ts

def Term.unfoldEntries : List (Scalar × Term) → List (Scalar × Term)
  | [] => []
  | (k, v) :: rest => (k, v.unfold) :: Term.unfoldEntries rest
termination_by structural es => es

end

end Rulebook
