import Kayan.Migrations.Files

/-!
# Killed migration runs

A run of `migrate.sh` may be killed between two statements of a file that is not wrapped in `BEGIN`
and `COMMIT`, and after a file whose row in `schema_migrations` is not yet there. Most files can
then be applied again. The points from which no run completes any more are `fatal`.
-/
namespace Kayan.Migrations
open Ddl Migration

/-- A database before its first migration. -/
def fresh : Db String (Catalog Name) := ⟨{}, []⟩

/-- After how many steps of a file a kill is fatal. -/
def fatal (file : String) (steps : Nat) : Bool :=
  match file with
  -- what these create has no `IF NOT EXISTS`
  | "0001_init.sql" | "0005_pending_registrations.sql" | "0023_gap_remediation.sql" => decide (1 ≤ steps)
  -- the rows are filled from `phone`, which is then dropped
  | "0017_auth_email_otp.sql" => decide (1 ≤ steps)
  -- the rows are filled from `user_contacts`, which the last statement drops
  | "0011_users_contact_info_drop_user_contacts.sql" => decide (6 ≤ steps)
  -- the rows are filled from `category_id`, which the tenth statement drops
  | "0014_products_category_text_fields.sql" => decide (10 ≤ steps)
  | _ => false

theorem files_resume : Resumes fatal files fresh := resumes_of_checkAll (by decide +kernel)

variable {d d' : Db String (Catalog Name)} {p : Point String} {m : Nat}

/-- A run that starts after some of the files. It is killed, and run again to completion: that
leads to what the run would have led to, if and only if the point was not fatal. -/
theorem migration_resumes_iff (hd : migrate (files.take m) fresh = some d) (hk : Killed files d p d') :
    (∃ e, migrate files d' = some e ∧ migrate files d = some e) ↔ p.fatal fatal = false := by
  have hresumes : Resumes fatal files d := by
    rw [← List.take_append_drop m files]
    apply Resumes.after _ hd
    rw [List.take_append_drop]
    exact files_resume
  obtain ⟨e, he⟩ := hresumes.completes
  have hafter := hk.migrate hresumes
  cases hp : p.fatal fatal with
  | true =>
    rw [hp, if_pos rfl] at hafter
    simp [hafter]
  | false =>
    rw [hp, if_neg Bool.false_ne_true] at hafter
    exact iff_of_true ⟨e, hafter.trans he, he⟩ rfl

theorem migration_resumes_soft_delete : ∃ d', Killed files fresh (.within "0002_products_soft_delete.sql" 1) d' ∧
    ∃ e, migrate files d' = some e ∧ migrate files fresh = some e := by
  have hkilled : ∃ d', Killed (files.take 1 ++ file0002 :: files.drop 2) fresh (.within file0002.name 1) d' :=
    exists_killed_within (by decide) (by decide +kernel)
  obtain ⟨d', hk⟩ := hkilled
  exact ⟨d', hk, (migration_resumes_iff (m := 0) rfl hk).mpr (by decide)⟩

/-- A run that is killed after the first statement of the last file, and cannot be completed. -/
theorem migration_stuck : ¬ ∀ (p : Point String) (d' : Db String (Catalog Name)), Killed files fresh p d' →
    ∃ e, migrate files d' = some e ∧ migrate files fresh = some e := by
  intro hclaim
  have hkilled : ∃ d', Killed (files.take 22 ++ [file0023]) fresh (.within file0023.name 1) d' :=
    exists_killed_within (by decide) (by decide +kernel)
  obtain ⟨d', hk⟩ := hkilled
  obtain ⟨e, he, -⟩ := hclaim (.within file0023.name 1) d' hk
  have hfails : migrate files d' = none := hk.migrate files_resume
  cases he.symm.trans hfails

end Kayan.Migrations
