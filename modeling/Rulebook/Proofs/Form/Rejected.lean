import Rulebook.Proofs.Condition.Rejected
import Rulebook.Proofs.Form.Reading
import Rulebook.Proofs.Term.Contents

/-!
# Why data is rejected

Data that is no expression is rejected for its own shape or for that of something inside of it.  So
what is said about it shows a part of the data, if it shows anything at all.
-/

namespace Rulebook
namespace Form

open Term

/-- What is shown of rejected data is the data itself or inside of it. -/
def ShowsInside (data : Term) : Prop :=
  ∀ problem got, read data = .error problem → problem.subject? = some got →
    Relation.ReflTransGen (fun whole part => part ∈ whole.contents) data got

theorem exists_of_readAll_eq_error {items : List Term} {problem : Malformed}
    (hitems : readAll items = .error problem) : ∃ item ∈ items, read item = .error problem := by
  rw [readAll_eq_mapM] at hitems
  obtain ⟨before, item, after, rfl, -, hitem⟩ := exists_of_mapM_eq_error hitems
  exact ⟨item, List.mem_append_right _ List.mem_cons_self, hitem⟩

theorem read_of_ofOperator {operator : Term} {problem : Malformed}
    (hoperator : ofOperator operator (read operator) = .error problem) :
    read operator = .error problem := by
  unfold ofOperator at hoperator
  split at hoperator
  · cases hoperator
  · split at hoperator
    · split_ifs at hoperator
      exact hoperator
    · exact hoperator

/-- What is wrong with the payload of a tag: its own form, that of an item, or something inside of an
item. -/
inductive PayloadRejected (payload : Term) (problem : Malformed) : Prop where
  | unshown (hsubject : problem.subject? = none)
  | payload (hsubject : problem.subject? = some payload)
  | item {items : List Term} {item : Term} (hlist : payload = .list items) (hitem : item ∈ items)
      (hsubject : problem.subject? = some item)
  | inside {items : List Term} {item : Term} (hlist : payload = .list items) (hitem : item ∈ items)
      (hread : read item = .error problem)
  | operand {items operands : List Term} {operand : Term} (hlist : payload = .list items)
      (hitem : .list operands ∈ items) (hoperand : operand ∈ operands)
      (hread : read operand = .error problem)

namespace PayloadRejected

variable {payload : Term} {problem : Malformed}

/-- Items are read in turn, and the node is made when all of them are accepted. -/
theorem bind {items : List Term} {item : Term} {next : Term → Except Malformed Term}
    (hlist : payload = .list items) (hitem : item ∈ items)
    (hread : read item >>= next = .error problem)
    (hnext : ∀ tree, next tree = .error problem → PayloadRejected payload problem) :
    PayloadRejected payload problem := by
  rcases bind_eq_error hread with hfailed | ⟨tree, -, hrest⟩
  · exact .inside hlist hitem hfailed
  · exact hnext tree hrest

theorem of_apply (hread : read (tagged .apply payload) = .error problem) :
    PayloadRejected payload problem := by
  rw [tagged, read.eq_def] at hread
  simp only [Tag.ofKey?_key] at hread
  split at hread
  · rename_i operator operands
    split at hread
    · rename_i operands
      rcases bind_eq_error hread with hoperator | ⟨tree, -, hrest⟩
      · exact .inside rfl (by simp) (read_of_ofOperator hoperator)
      · rcases bind_eq_error hrest with hoperands | ⟨trees, -, hcall⟩
        · obtain ⟨operand, hoperand, hfailed⟩ := exists_of_readAll_eq_error hoperands
          exact .operand rfl (by simp) hoperand hfailed
        · cases hcall
    · cases hread
      exact .item rfl (by simp) rfl
  · cases hread
    exact .payload rfl

theorem of_lambda (hread : read (tagged .lambda payload) = .error problem) :
    PayloadRejected payload problem := by
  rw [tagged, read.eq_def] at hread
  simp only [Tag.ofKey?_key] at hread
  split at hread
  · rename_i params body
    split at hread
    · split at hread
      · refine .bind rfl (by simp) hread fun tree hlambda => ?_
        unfold lambda? at hlambda
        split_ifs at hlambda
        cases hlambda
        exact .unshown rfl
      · cases hread
        exact .item rfl (by simp) rfl
    · cases hread
      exact .item rfl (by simp) rfl
  · cases hread
    exact .payload rfl

theorem of_cond (hread : read (tagged .cond payload) = .error problem) :
    PayloadRejected payload problem := by
  rw [tagged, read.eq_def] at hread
  simp only [Tag.ofKey?_key] at hread
  split at hread
  · refine .bind rfl (by simp) hread fun predicate hrest => ?_
    refine .bind rfl (by simp) hrest fun consequent htree => ?_
    cases htree
  · refine .bind rfl (by simp) hread fun predicate hrest => ?_
    refine .bind rfl (by simp) hrest fun consequent hrest => ?_
    refine .bind rfl (by simp) hrest fun alternative htree => ?_
    cases htree
  · cases hread
    exact .payload rfl

theorem of_begin (hread : read (tagged .begin payload) = .error problem) :
    PayloadRejected payload problem := by
  rw [tagged, read.eq_def] at hread
  simp only [Tag.ofKey?_key] at hread
  split at hread
  · rcases bind_eq_error hread with hitems | ⟨trees, -, hsequence⟩
    · obtain ⟨item, hitem, hfailed⟩ := exists_of_readAll_eq_error hitems
      exact .inside rfl hitem hfailed
    · unfold sequence? at hsequence
      split_ifs at hsequence
      cases hsequence
      exact .unshown rfl
  · cases hread
    exact .payload rfl

theorem of_read_tagged {tag : Tag} (hread : read (tagged tag payload) = .error problem) :
    PayloadRejected payload problem := by
  cases tag with
  | apply => exact of_apply hread
  | lambda => exact of_lambda hread
  | cond => exact of_cond hread
  | begin => exact of_begin hread
  | var =>
      rw [tagged, read.eq_def] at hread
      simp only [Tag.ofKey?_key] at hread
      split at hread
      · cases hread
      · cases hread
        exact .payload rfl
  | quote => cases hread
  | when => exact .unshown (Condition.subject?_of_ofTerm hread)
  | set | define =>
      rw [tagged, read.eq_def] at hread
      simp only [Tag.ofKey?_key] at hread
      split at hread
      · split at hread
        · refine .bind rfl (by simp) hread fun tree hnode => ?_
          cases hnode
        · cases hread
          exact .item rfl (by simp) rfl
      · cases hread
        exact .payload rfl

end PayloadRejected

/-- If data is tagged, what its payload holds is two levels below it. -/
theorem showsInside_tagged {tag : Tag} {payload : Term}
    (hpayload : Throughout ShowsInside payload) : ShowsInside (tagged tag payload) := by
  intro problem got hread hgot
  have hstep : payload ∈ (tagged tag payload).contents := List.mem_singleton.mpr rfl
  have hbelow : ∀ {items item}, payload = .list items → item ∈ items →
      Relation.ReflTransGen (fun whole part => part ∈ whole.contents) (tagged tag payload) item ∧
        Throughout ShowsInside item := by
    rintro items item rfl hitem
    exact ⟨.head hstep (.single hitem), hpayload.of_mem hitem⟩
  cases PayloadRejected.of_read_tagged hread with
  | unshown hsubject => cases hsubject.symm.trans hgot
  | payload hsubject =>
      cases hsubject.symm.trans hgot
      exact .single hstep
  | item hlist hitem hsubject =>
      cases hsubject.symm.trans hgot
      exact (hbelow hlist hitem).1
  | inside hlist hitem hfailed =>
      obtain ⟨hreach, hshows⟩ := hbelow hlist hitem
      exact hreach.trans (hshows.self problem got hfailed hgot)
  | operand hlist hitem hoperand hfailed =>
      obtain ⟨hreach, hshows⟩ := hbelow hlist hitem
      exact (hreach.tail hoperand).trans
        ((hshows.of_mem hoperand).self problem got hfailed hgot)

theorem throughout_showsInside (data : Term) : Throughout ShowsInside data := by
  induction data using Term.contents_induct with
  | h data ih =>
      refine .intro ?_ ih
      cases data with
      | list items =>
          intro problem got hread hgot
          rcases bind_eq_error hread with hitems | ⟨trees, -, htree⟩
          · obtain ⟨item, hmem, hfailed⟩ := exists_of_readAll_eq_error hitems
            exact .head hmem ((ih item hmem).self problem got hfailed hgot)
          · cases htree
      | mapping entries =>
          cases hentries : isTagged entries with
          | true =>
              obtain ⟨tag, payload, hdata⟩ := exists_of_isTagged hentries
              rw [hdata] at ih ⊢
              exact showsInside_tagged (ih payload (List.mem_singleton.mpr rfl))
          | false =>
              intro problem got hread
              rw [read_mapping hentries] at hread
              cases hread
      | _ =>
          intro problem got hread
          cases hread

end Form
end Rulebook
