import Rulebook.Proofs.Condition.Parsed
import Rulebook.Proofs.Form.RoundTrip

/-!
# What reading does

Data that is accepted is read in one of a few ways, most of which belong to a tag.  They are listed
here once, with what each of them has to find and with the readings that it is made from.
-/

namespace Rulebook
namespace Form

/-- The ways in which data is read as an expression. -/
inductive Reading : Term → Term → Prop where
  | other {data : Term} (hlist : ∀ items, data ≠ .list items)
      (hmapping : ∀ entries, data ≠ .mapping entries) : Reading data data
  | list {items trees : List Term} {tree : Term} (hitems : readAll items = .ok trees)
      (htree : tree = ofItems trees) : Reading (.list items) tree
  | mapping {entries : List (Scalar × Term)} (hentries : isTagged entries = false) :
      Reading (.mapping entries) (.mapping entries)
  | var {payload : Term} {name : String} (hname : payload.text? = some name) :
      Reading (tagged .var payload) (.variable name)
  | quote (payload : Term) : Reading (tagged .quote payload) (.quoted payload)
  | when {payload tree : Term} (htree : Condition.ofTerm payload = .ok tree) :
      Reading (tagged .when payload) tree
  | apply {operator tree : Term} {operands trees : List Term}
      (hoperator : ofOperator operator (read operator) = .ok tree)
      (hoperands : readAll operands = .ok trees) :
      Reading (tagged .apply (.list [operator, .list operands])) (.application tree trees)
  | lambda {params : List Term} {body tree : Term} {names : List String}
      (hparams : names? params = some names) (hnodup : names.Nodup) (hbody : read body = .ok tree) :
      Reading (tagged .lambda (.list [.list params, body])) (.lambda names tree)
  | cond {p c predicate consequent : Term} (hp : read p = .ok predicate)
      (hc : read c = .ok consequent) :
      Reading (tagged .cond (.list [p, c])) (.conditional predicate consequent .null)
  | condAlternative {p c a predicate consequent alternative : Term} (hp : read p = .ok predicate)
      (hc : read c = .ok consequent) (ha : read a = .ok alternative) :
      Reading (tagged .cond (.list [p, c, a])) (.conditional predicate consequent alternative)
  | set {target value tree : Term} {name : String} (htarget : target.text? = some name)
      (hvalue : read value = .ok tree) :
      Reading (tagged .set (.list [target, value])) (.assignment name tree)
  | define {target value tree : Term} {name : String} (htarget : target.text? = some name)
      (hvalue : read value = .ok tree) :
      Reading (tagged .define (.list [target, value])) (.definition name tree)
  | begin {items trees : List Term} (hitems : readAll items = .ok trees) (hne : trees ≠ []) :
      Reading (tagged .begin (.list items)) (.sequence trees)

theorem readAll_eq_mapM (items : List Term) : readAll items = items.mapM read := by
  induction items with
  | nil => rfl
  | cons item rest ih =>
      rw [readAll, List.mapM_cons, ih]
      rfl

theorem eq_key_of_ofKey? {key : String} {tag : Tag} (hkey : Tag.ofKey? key = some tag) :
    key = tag.key := by
  have hfound := List.find?_some hkey
  exact (of_decide_eq_true hfound).symm

theorem exists_of_isTagged {entries : List (Scalar × Term)} (hentries : isTagged entries = true) :
    ∃ tag payload, Term.mapping entries = tagged tag payload := by
  unfold isTagged at hentries
  split at hentries
  · obtain ⟨tag, htag⟩ := Option.isSome_iff_exists.mp hentries
    exact ⟨tag, _, by rw [tagged, eq_key_of_ofKey? htag]⟩
  · cases hentries

theorem reading_of_read_tagged {tag : Tag} {payload tree : Term}
    (hread : read (tagged tag payload) = .ok tree) : Reading (tagged tag payload) tree := by
  -- Each tag rejects every payload but those of its own forms.
  rw [tagged, read.eq_def] at hread
  simp only [Tag.ofKey?_key] at hread
  cases tag with
  | var =>
      simp only at hread
      split at hread
      · cases hread
        exact .var ‹_›
      · cases hread
  | quote =>
      cases hread
      exact .quote payload
  | when => exact .when hread
  | apply =>
      simp only at hread
      split at hread
      · split at hread
        · obtain ⟨operator, hoperator, hrest⟩ := exists_of_bind_eq_ok hread
          obtain ⟨operands, hoperands, htree⟩ := exists_of_bind_eq_ok hrest
          cases htree
          exact .apply hoperator hoperands
        · cases hread
      · cases hread
  | lambda =>
      simp only at hread
      split at hread
      · split at hread
        · split at hread
          · obtain ⟨body, hbody, hlambda⟩ := exists_of_bind_eq_ok hread
            unfold lambda? at hlambda
            split_ifs at hlambda with hnodup
            cases hlambda
            exact .lambda ‹_› hnodup hbody
          · cases hread
        · cases hread
      · cases hread
  | cond =>
      simp only at hread
      split at hread
      · obtain ⟨p, hp, hrest⟩ := exists_of_bind_eq_ok hread
        obtain ⟨c, hc, htree⟩ := exists_of_bind_eq_ok hrest
        cases htree
        exact .cond hp hc
      · obtain ⟨p, hp, hrest⟩ := exists_of_bind_eq_ok hread
        obtain ⟨c, hc, hrest⟩ := exists_of_bind_eq_ok hrest
        obtain ⟨a, ha, htree⟩ := exists_of_bind_eq_ok hrest
        cases htree
        exact .condAlternative hp hc ha
      · cases hread
  | set =>
      simp only at hread
      split at hread
      · split at hread
        · obtain ⟨value, hvalue, htree⟩ := exists_of_bind_eq_ok hread
          cases htree
          exact .set ‹_› hvalue
        · cases hread
      · cases hread
  | define =>
      simp only at hread
      split at hread
      · split at hread
        · obtain ⟨value, hvalue, htree⟩ := exists_of_bind_eq_ok hread
          cases htree
          exact .define ‹_› hvalue
        · cases hread
      · cases hread
  | begin =>
      simp only at hread
      split at hread
      · obtain ⟨items, hitems, hsequence⟩ := exists_of_bind_eq_ok hread
        unfold sequence? at hsequence
        split_ifs at hsequence with hempty
        cases hsequence
        exact .begin hitems (by simpa using hempty)
      · cases hread

theorem reading_of_read {data tree : Term} (hread : read data = .ok tree) : Reading data tree := by
  cases data with
  | list items =>
      obtain ⟨trees, hitems, htree⟩ := exists_of_bind_eq_ok hread
      cases htree
      exact .list hitems rfl
  | mapping entries =>
      cases hentries : isTagged entries with
      | true =>
          obtain ⟨tag, payload, hdata⟩ := exists_of_isTagged hentries
          rw [hdata] at hread ⊢
          exact reading_of_read_tagged hread
      | false =>
          rw [read_mapping hentries] at hread
          cases hread
          exact .mapping hentries
  | _ =>
      cases hread
      exact .other (fun _ => Term.noConfusion) fun _ => Term.noConfusion

end Form
end Rulebook
