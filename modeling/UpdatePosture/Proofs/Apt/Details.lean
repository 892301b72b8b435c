import Mathlib
import UpdatePosture.Proofs.Apt.Provenance
import UpdatePosture.Proofs.Report.Sizes

/-!
# What details are good for

Details are asked for, and nothing but sizes is read out of them. Two machines that differ in their details only
are asked the same and have the same packages, up to sizes. Main statement:
`installedPackages_of_agreeButForDetails`.
-/

namespace UpdatePosture.Apt

open Dialogue

/-! ## Replies -/

def ChunkReply.withoutDetails (reply : ChunkReply) : ChunkReply :=
  { reply with details := none }

def Replies.withoutDetails (replies : Replies) : Replies :=
  { replies with chunks := replies.chunks.map .withoutDetails }

theorem package_unsized (sizes : Sizes) (row : InstalledRow) (found : Option PolicyEntry) :
    (package sizes row found).unsized = package .empty row found := by
  cases found with
  | none => rfl
  | some entry =>
    -- the records are found by their version, so that the sizes in them make no difference
    have hinstalled (available : List VersionRecord) (version : String) :
        ((available.find? (·.version == version)).getD (localRecord sizes row.name version)).unsized =
          ((available.map VersionRecord.unsized).find? (·.version == version)).getD
            (localRecord .empty row.name version) := by
      rw [List.find?_map]
      show _ = (Option.map _ (available.find? (·.version == version))).getD _
      cases available.find? (·.version == version) <;> rfl
    simp only [package, InstalledPackage.unsized, hinstalled, List.map_map]
    rfl

/-- To leave the details out is to know no sizes. -/
theorem packages_withoutDetails (replies : Replies) :
    replies.withoutDetails.packages = replies.packages.map .unsized := by
  have hentries : replies.withoutDetails.entries = replies.entries := List.flatMap_map ..
  have hsizes : replies.withoutDetails.sizes = .empty := by
    simp [Replies.sizes, Replies.withoutDetails, ChunkReply.withoutDetails, List.filterMap_map, Function.comp_def]
  rw [packages_eq_map, packages_eq_map, hentries, hsizes, List.map_map]
  exact List.map_congr_left fun row _ => (package_unsized replies.sizes row _).symm

/-! ## Runs -/

/-- Package tools that answer alike, except perhaps when they are asked for details. -/
structure AgreeButForDetails (first second : Responder Query (Except Failure String)) : Prop where
  installed : ∀ asked, first asked .installed = second asked .installed
  packageFiles : ∀ asked, first asked .packageFiles = second asked .packageFiles
  policy : ∀ asked names, first asked (.policy names) = second asked (.policy names)

section Run

variable {first second : Responder Query (Except Failure String)}

theorem runFrom_withoutDetails_askChunk (h : AgreeButForDetails first second) (files : PackageFiles)
    (names : List String) :
    runFrom (ChunkReply.withoutDetails <$> askChunk (ask first) files names) =
      runFrom (ChunkReply.withoutDetails <$> askChunk (ask second) files names) := by
  have hchunk (respond : Responder Query (Except Failure String)) :
      ChunkReply.withoutDetails <$> askChunk (ask respond) files names = do
        let policy ← logging (policyLog files) (ask respond (.policy names))
        let _ ← attempt (ask respond (.details names)) .detailsFailed
        return ⟨policy, none⟩ := by
    simp only [askChunk, map_bind, map_pure]
    rfl
  rw [hchunk, hchunk]
  refine runFrom_bind_congr ?_ fun policy => runFrom_attempt_ask_bind first second _ (.details names) _
  funext asked
  rw [runFrom_logging, runFrom_logging, runFrom_ask_congr fun asked => h.policy asked names]

theorem runFrom_withoutDetails_askAll (h : AgreeButForDetails first second) (chunkSize : Nat) :
    runFrom (Replies.withoutDetails <$> askAll (ask first) chunkSize) =
      runFrom (Replies.withoutDetails <$> askAll (ask second) chunkSize) := by
  have hall (respond : Responder Query (Except Failure String)) :
      Replies.withoutDetails <$> askAll (ask respond) chunkSize = do
        let installed ← ask respond .installed
        let packageFiles ← ask respond .packageFiles
        let names := (firstRows (installedRows installed)).map (·.name)
        let replies ← (chunks chunkSize names).mapM fun chunk =>
          ChunkReply.withoutDetails <$> askChunk (ask respond) (.read packageFiles) chunk
        return ⟨installed, packageFiles, replies⟩ := by
    simp only [askAll, map_bind, map_pure, ← map_mapM, bind_map_left]
    rfl
  rw [hall, hall]
  refine runFrom_bind_congr (runFrom_ask_congr h.installed) fun installed => ?_
  refine runFrom_bind_congr (runFrom_ask_congr h.packageFiles) fun packageFiles => ?_
  refine runFrom_bind_congr ?_ fun replies => rfl
  exact runFrom_mapM_congr (runFrom_withoutDetails_askChunk h (.read packageFiles)) _

theorem runFrom_unsized_installedPackages (h : AgreeButForDetails first second) (chunkSize : Nat) :
    runFrom (List.map InstalledPackage.unsized <$> installedPackages (ask first) chunkSize) =
      runFrom (List.map InstalledPackage.unsized <$> installedPackages (ask second) chunkSize) := by
  have hunsized (respond : Responder Query (Except Failure String)) (asked : List Query) :
      runFrom (List.map InstalledPackage.unsized <$> installedPackages (ask respond) chunkSize) asked =
        runFrom (Replies.packages <$> Replies.withoutDetails <$> askAll (ask respond) chunkSize) asked := by
    rw [installedPackages, Functor.map_map, Functor.map_map, runFrom_map, runFrom_map, runFrom_logging]
    simp only [packages_withoutDetails]
  funext asked
  rw [hunsized, hunsized, runFrom_map Replies.packages, runFrom_map Replies.packages,
    runFrom_withoutDetails_askAll h]

/-- Whatever becomes of the details, the same queries are put, and they end in the same failure, or in packages
that are the same up to sizes. The reports on these packages differ in the sizes of their entries only, and
the listings do not differ. -/
theorem installedPackages_of_agreeButForDetails (h : AgreeButForDetails first second) (chunkSize : Nat) :
    let run respond := (installedPackages (ask respond) chunkSize).transcript
    (run first).2 = (run second).2 ∧
      ((∃ failure, (run first).1 = .error failure ∧ (run second).1 = .error failure) ∨
        ∃ packages others, (run first).1 = .ok packages ∧ (run second).1 = .ok others ∧
          packages.map InstalledPackage.unsized = others.map .unsized ∧
          ∀ series, let table := OriginTable.ofSeries series
            (∀ subscription, (Report.build table packages subscription).unsized =
              (Report.build table others subscription).unsized) ∧
            ∀ kind, Listing.build table kind (table.partition packages) =
              Listing.build table kind (table.partition others)) := by
  obtain ⟨hasked, hfailed | ⟨packages, others, hpackages, hothers, hunsized⟩⟩ :=
    runFrom_of_map_eq (runFrom_unsized_installedPackages h chunkSize) []
  · exact ⟨hasked, .inl hfailed⟩
  · refine ⟨hasked, .inr ⟨packages, others, hpackages, hothers, hunsized, fun series => ⟨?_, ?_⟩⟩⟩
    · intro subscription
      rw [← Report.build_map_unsized, hunsized, Report.build_map_unsized]
    · intro kind
      rw [← Listing.build_map_unsized, hunsized, Listing.build_map_unsized]

end Run

/-- The machine with one package, on which its details can be had. -/
def detailedAnswers (asked : List Query) : Query → Except Failure String
  | .details _ => .ok "Package: libc6\nVersion: 2.36\nSize: 700\n"
  | query => sampleAnswers asked query

theorem installedPackages_detailedAnswers :
    AgreeButForDetails sampleAnswers detailedAnswers ∧
      ∃ packages, (installedPackages (ask detailedAnswers) 1).transcript =
          (.ok packages, [.installed, .packageFiles, .policy ["libc6"], .details ["libc6"]]) ∧
        packages.map InstalledPackage.unsized = sampleReplies.packages.map .unsized ∧
        ∀ kind, let table := OriginTable.ofSeries "jammy"
          Listing.build table kind (table.partition packages) =
            Listing.build table kind (table.partition sampleReplies.packages) := by
  have hagree : AgreeButForDetails sampleAnswers detailedAnswers :=
    ⟨fun _ => rfl, fun _ => rfl, fun _ _ => rfl⟩
  refine ⟨hagree, ?_⟩
  obtain ⟨hasked, houtcome⟩ := installedPackages_of_agreeButForDetails hagree 1
  simp only [transcript_sampleAnswers] at hasked houtcome
  rcases houtcome with ⟨failure, hfailed, -⟩ | ⟨packages, others, hpackages, hothers, hunsized, hdocuments⟩
  · cases hfailed
  · obtain rfl := Except.ok.inj hpackages
    refine ⟨others, ?_, hunsized.symm, fun kind => ((hdocuments "jammy").2 kind).symm⟩
    rw [hasked, ← hothers]

end UpdatePosture.Apt
