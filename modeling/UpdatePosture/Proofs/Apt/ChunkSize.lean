import Mathlib
import UpdatePosture.Proofs.Apt.Index
import UpdatePosture.Proofs.Apt.Policy
import UpdatePosture.Proofs.Apt.Stanzas

/-!
# The size of the chunks

How many packages are asked about at a time makes no difference, if what is answered about several packages is
what is answered about each of them, one after the other. Main statement:
`installedPackages_of_answersByName`.
-/

namespace UpdatePosture.Apt

open Dialogue

/-! ## Replies -/

/-- What is answered about some names, one after the other. -/
def replyAbout (policyOf detailsOf : String → String) (names : List String) : ChunkReply :=
  ⟨String.join (names.map policyOf), some (String.join (names.map detailsOf))⟩

/-- The replies of tools that are asked about all installed packages at once. -/
def repliesAtOnce (policyOf detailsOf : String → String) (installed packageFiles : String) : Replies :=
  ⟨installed, packageFiles, [replyAbout policyOf detailsOf ((firstRows (installedRows installed)).map (·.name))]⟩

theorem packages_congr {first second : Replies} (hinstalled : first.installed = second.installed)
    (hentries : first.entries = second.entries) (hsizes : first.sizes = second.sizes) :
    first.packages = second.packages := by
  simp only [packages_eq_map, Replies.rows, hinstalled, hentries, hsizes]

section Replies

variable {policyOf detailsOf : String → String} (installed packageFiles : String) (chunks : List (List String))

theorem entries_map_replyAbout (hpolicy : ∀ name, IsBlockText (policyOf name)) :
    (Replies.mk installed packageFiles (chunks.map (replyAbout policyOf detailsOf))).entries =
      chunks.flatten.flatMap fun name => readPolicy (.read packageFiles) (policyOf name) := by
  have hchunk (names : List String) :
      readPolicy (.read packageFiles) (replyAbout policyOf detailsOf names).policy =
        names.flatMap fun name => readPolicy (.read packageFiles) (policyOf name) := by
    rw [replyAbout, readPolicy_join (List.forall_mem_map.mpr fun name _ => hpolicy name), List.flatMap_map]
  rw [Replies.entries, List.flatMap_map, ← List.flatMap_id, List.flatMap_assoc]
  exact List.flatMap_congr fun names _ => hchunk names

theorem sizes_map_replyAbout (hdetails : ∀ name, IsStanzaText (detailsOf name)) :
    (Replies.mk installed packageFiles (chunks.map (replyAbout policyOf detailsOf))).sizes =
      .read (String.join (chunks.flatten.map detailsOf)) := by
  have hparts (names : List String) : ∀ text ∈ names.map detailsOf, IsStanzaText text :=
    List.forall_mem_map.mpr fun name _ => hdetails name
  have hchunk : (fun (sizes : Sizes) (names : List String) =>
        sizes.updatedBy (.read (String.join (names.map detailsOf)))) =
      fun sizes names =>
        (names.map detailsOf).foldl (fun sizes text => sizes.updatedBy (.read text)) sizes := by
    funext sizes names
    rw [Sizes.foldl_updatedBy_read (hparts names)]
  rw [Sizes.read_join (hparts _), List.map_flatten, List.foldl_flatten, List.foldl_map, ← hchunk]
  simp [Replies.sizes, replyAbout, List.filterMap_map, Function.comp_def, List.foldl_map]

/-- Answers about names that are asked for in pieces are as good as one answer about all of them. -/
theorem packages_map_replyAbout (hpolicy : ∀ name, IsBlockText (policyOf name))
    (hdetails : ∀ name, IsStanzaText (detailsOf name)) :
    (Replies.mk installed packageFiles (chunks.map (replyAbout policyOf detailsOf))).packages =
      (Replies.mk installed packageFiles [replyAbout policyOf detailsOf chunks.flatten]).packages := by
  have hwhole : [replyAbout policyOf detailsOf chunks.flatten] =
      [chunks.flatten].map (replyAbout policyOf detailsOf) := rfl
  have hflatten : [chunks.flatten].flatten = chunks.flatten := List.append_nil _
  refine packages_congr rfl ?_ ?_
  · rw [hwhole, entries_map_replyAbout _ _ _ hpolicy, entries_map_replyAbout _ _ _ hpolicy, hflatten]
  · rw [hwhole, sizes_map_replyAbout _ _ _ hdetails, sizes_map_replyAbout _ _ _ hdetails, hflatten]

end Replies

/-! ## Runs -/

/-- Package tools that list the packages and the package files, and that answer about several names what they
have to say about each of them, one after the other. It is said in whole blocks, and in whole stanzas. -/
structure AnswersByName (respond : Responder Query (Except Failure String))
    (policyOf detailsOf : String → String) : Prop where
  installed : ∃ text, respond [] .installed = .ok text
  packageFiles : ∃ text, respond [.installed] .packageFiles = .ok text
  policy : ∀ asked names, respond asked (.policy names) = .ok (String.join (names.map policyOf))
  details : ∀ asked names, respond asked (.details names) = .ok (String.join (names.map detailsOf))
  blocks : ∀ name, IsBlockText (policyOf name)
  stanzas : ∀ name, IsStanzaText (detailsOf name)

section Run

variable {respond : Responder Query (Except Failure String)} {policyOf detailsOf : String → String}

theorem AnswersByName.runFrom_askChunk (h : AnswersByName respond policyOf detailsOf) (files : PackageFiles)
    (names : List String) (asked : List Query) :
    runFrom (askChunk (ask respond) files names) asked =
      (.ok (replyAbout policyOf detailsOf names), asked ++ [.policy names, .details names]) := by
  simp only [askChunk, runFrom_bind, runFrom_logging, runFrom_ask, runFrom_attempt, runFrom_pure, h.policy, h.details]
  rw [List.append_assoc]
  rfl

/-- What tools that answer by name have answered in the end. -/
theorem AnswersByName.runFrom_askAll (h : AnswersByName respond policyOf detailsOf)
    {installed packageFiles : String} (hinstalled : respond [] .installed = .ok installed)
    (hfiles : respond [.installed] .packageFiles = .ok packageFiles) (chunkSize : Nat) :
    (runFrom (askAll (ask respond) chunkSize) []).1 =
      .ok ⟨installed, packageFiles, (chunks chunkSize ((firstRows (installedRows installed)).map (·.name))).map
        (replyAbout policyOf detailsOf)⟩ := by
  have hreplies := runFrom_mapM_of_ok (h.runFrom_askChunk (.read packageFiles))
    (chunks chunkSize ((firstRows (installedRows installed)).map (·.name))) [.installed, .packageFiles]
  simp only [askAll, runFrom_bind, runFrom_ask, runFrom_pure, hinstalled, hfiles, List.nil_append,
    List.singleton_append]
  rw [hreplies]

/-- The packages that are found are those that would be found by asking about all of them at once, no matter how
many are asked about at a time. To ask about no package at a time is to ask about one. -/
theorem installedPackages_of_answersByName (h : AnswersByName respond policyOf detailsOf) :
    (∃ installed packageFiles, respond [] .installed = .ok installed ∧
      respond [.installed] .packageFiles = .ok packageFiles ∧
      ∀ chunkSize, (installedPackages (ask respond) chunkSize).transcript.1 =
        .ok (repliesAtOnce policyOf detailsOf installed packageFiles).packages) ∧
    (installedPackages (ask respond) 0).transcript = (installedPackages (ask respond) 1).transcript := by
  refine ⟨?_, by simp only [installedPackages, askAll, chunks_zero]⟩
  obtain ⟨installed, hinstalled⟩ := h.installed
  obtain ⟨packageFiles, hfiles⟩ := h.packageFiles
  refine ⟨installed, packageFiles, hinstalled, hfiles, fun chunkSize => ?_⟩
  have hpackages := packages_map_replyAbout installed packageFiles
    (chunks chunkSize ((firstRows (installedRows installed)).map (·.name))) h.blocks h.stanzas
  rw [flatten_chunks] at hpackages
  rw [transcript_eq_runFrom, runFrom_installedPackages, h.runFrom_askAll hinstalled hfiles, repliesAtOnce,
    ← hpackages]
  rfl

end Run

/-! ## Tools that answer by name -/

/-- Two tables, the first of which also tells of the other package. -/
def sampleTable (name : String) : String :=
  if name = "libc6" then
    "libc6:\n  Installed: 2.35\n  Version table:\n     2.36 500\n        500 http://security main\n" ++
      "bash:\n  Candidate: 5.0\n"
  else if name = "bash" then "bash:\n  Installed: 5.1\n"
  else ""

/-- The details of one package, with a line behind them that is blank but not empty. -/
def sampleDetails (name : String) : String :=
  if name = "libc6" then "Package: libc6\nVersion: 2.36\nSize: 700\n \n" else ""

def namedAnswers (_asked : List Query) : Query → Except Failure String
  | .installed => .ok "ii \tlibc6\t2.35\nii \tbash\t5.1\n"
  | .packageFiles => .ok " 500 http://security main\n     release o=Ubuntu,a=jammy-security,c=main\n"
  | .policy names => .ok (String.join (names.map sampleTable))
  | .details names => .ok (String.join (names.map sampleDetails))

theorem installedPackages_namedAnswers :
    AnswersByName namedAnswers sampleTable sampleDetails ∧
      (∃ installed packageFiles, namedAnswers [] .installed = .ok installed ∧
        namedAnswers [.installed] .packageFiles = .ok packageFiles ∧
        ∀ chunkSize, (installedPackages (ask namedAnswers) chunkSize).transcript.1 =
          .ok (repliesAtOnce sampleTable sampleDetails installed packageFiles).packages) ∧
      (installedPackages (ask namedAnswers) 0).transcript =
        (installedPackages (ask namedAnswers) 1).transcript := by
  have h : AnswersByName namedAnswers sampleTable sampleDetails := {
    installed := ⟨_, rfl⟩
    packageFiles := ⟨_, rfl⟩
    policy := fun _ _ => rfl
    details := fun _ _ => rfl
    blocks := by
      intro name
      unfold sampleTable
      split
      · decide +kernel
      · split <;> decide
    stanzas := by
      intro name
      unfold sampleDetails
      split <;> decide }
  exact ⟨h, installedPackages_of_answersByName h⟩

end UpdatePosture.Apt
