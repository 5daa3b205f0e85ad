/-
All ways to a stylesheet agree. Checking, building at any width and to any destination, and asking for the text alone
(`stylesheet` at the default indentation) take and reject the same sources, with the same rejection. A job that fails
shows nothing on the screen and leaves the file system as it was; one that succeeds does what it was asked for.

- `stylesheet_error_iff`: the indentation decides neither whether a source is rejected nor how;
- `run_of_failure`, `run_of_text`: how a job ends, by what its source was composed to;
- `run_alike`: progress lines change the log and nothing else;
- `job?_tree`: where the stylesheet goes, by what is given on the command line;
- `front_ends_agree`: all of it, for every command line that asks for a tree.
-/
import StyleTree.Command.Run
import StyleTree.Proofs.CommandLine
import StyleTree.Proofs.Files
import StyleTree.Proofs.Histories

namespace StyleTree

/-! ## Rejections -/

/-- a rejected source is rejected alike at every indentation -/
theorem stylesheet_error_iff {source : String} {indent indent' : String} {r : Rejection} :
    stylesheet source indent = .error r ↔ stylesheet source indent' = .error r := by
  unfold stylesheet
  rcases hn : Json.readTree source with e | n
  · simp
  · simp only [render_eq n (Json.readTree_valid hn)]
    rcases n.halt? with _ | h <;> simp

/-- so a source that gives a text at one indentation gives one at every other -/
theorem stylesheet_ok_of_ok {source indent text : String} (h : stylesheet source indent = .ok text) (indent' : String) :
    ∃ text', stylesheet source indent' = .ok text' := by
  rcases hs : stylesheet source indent' with r | text'
  · rw [stylesheet_error_iff, h] at hs
    cases hs
  · exact ⟨text', rfl⟩

namespace Command

/-- the failure of a job whose source is rejected -/
def rejected (path : String) : Rejection → Failure
  | .source e => .decoding path e
  | .render e => .generating path e

theorem rejected_inj {path : String} {r r' : Rejection} : rejected path r = rejected path r' ↔ r = r' := by
  constructor
  · intro h
    rcases r with e | e <;> rcases r' with e' | e' <;> cases h <;> rfl
  · rintro rfl
    rfl

/-- a source that was read is composed to its stylesheet at the width -/
theorem compose_eq (path : String) (width : Nat) (source : String) :
    (compose path width (.ok source)).2 = (stylesheet source (spaces width)).mapError (rejected path) := by
  simp only [compose, stylesheet]
  rcases Json.readTree source with e | n
  · rfl
  · dsimp only
    rcases render n none (spaces width) with e | text <;> rfl

/-! ## How a job ends -/

/-- what a report says apart from its log: the exit code, the screen and the failure -/
def Report.verdict (r : Report) : Nat × String × Option Failure := (r.code, r.stdout, r.failure)

/-- the job fails, and shows and changes nothing -/
def Fails (d : Disk) (f : Failure) (out : Report × Disk) : Prop := out.1.verdict = (1, "", some f) ∧ out.2 = d

/-- the job has this text and does with it what it was asked for -/
def Delivers (d : Disk) (text : String) (out : Report × Disk) : Action → Prop
  | .check => out.1.verdict = (0, "", none) ∧ out.2 = d
  | .build _ .screen => out.1.verdict = (0, text ++ "\n", none) ∧ out.2 = d
  | .build _ (.file target) =>
    (out.1.verdict = (0, "", none) ∧ d.write target (text ++ "\n") = .ok out.2 ∧
      d.Rewritten target (text ++ "\n") out.2) ∨
    ∃ fault, d.write target (text ++ "\n") = .error fault ∧ Fails d (.writing target fault) out

section

variable (verbose : Bool) (usual : Detail) {path : String} {action : Action} {d : Disk}

/-- a job without a text fails before anything is shown or written -/
theorem run_of_failure {f : Failure} (h : (compose path action.width (d.read path)).2 = .error f) :
    Fails d f (Invocation.run ⟨verbose, .tree path action⟩ usual d) := by
  simp only [Invocation.run, proceed]
  generalize compose path action.width (d.read path) = composed at h
  obtain ⟨events, result⟩ := composed
  subst h
  exact ⟨rfl, rfl⟩

/-- a job with a text delivers it -/
theorem run_of_text {text : String} (h : (compose path action.width (d.read path)).2 = .ok text) :
    Delivers d text (Invocation.run ⟨verbose, .tree path action⟩ usual d) action := by
  simp only [Invocation.run, proceed]
  generalize compose path action.width (d.read path) = composed at h
  obtain ⟨events, result⟩ := composed
  subst h
  rcases action with _ | ⟨width, _ | target⟩
  · exact ⟨rfl, rfl⟩
  · exact ⟨rfl, rfl⟩
  · dsimp only
    rcases hw : d.write target (text ++ "\n") with fault | d'
    · exact .inr ⟨fault, hw, rfl, rfl⟩
    · exact .inl ⟨rfl, hw, Disk.write_rewrites hw⟩

/-- progress lines change neither the verdict nor the file system -/
theorem run_alike (verbose' : Bool) (usual' : Detail) (job : Job) :
    (Invocation.run ⟨verbose, job⟩ usual d).1.verdict = (Invocation.run ⟨verbose', job⟩ usual' d).1.verdict ∧
      (Invocation.run ⟨verbose, job⟩ usual d).2 = (Invocation.run ⟨verbose', job⟩ usual' d).2 := by
  rcases job with _ | ⟨path, action⟩
  · exact ⟨rfl, rfl⟩
  · simp only [Invocation.run, proceed]
    obtain ⟨events, f | text⟩ := compose path action.width (d.read path)
    · exact ⟨rfl, rfl⟩
    · rcases action with _ | ⟨width, _ | target⟩
      · exact ⟨rfl, rfl⟩
      · exact ⟨rfl, rfl⟩
      · dsimp only
        rcases d.write target (text ++ "\n") with fault | d'
        · exact ⟨rfl, rfl⟩
        · exact ⟨rfl, rfl⟩

end

/-- a job that delivers a text was not rejected -/
theorem Delivers.not_rejected {d : Disk} {text : String} {out : Report × Disk} {action : Action}
    (h : Delivers d text out action) (path : String) (r : Rejection) : out.1.failure ≠ some (rejected path r) := by
  have hf : out.1.failure = none ∨ ∃ target fault, out.1.failure = some (.writing target fault) := by
    rcases action with _ | ⟨width, _ | target⟩
    · exact .inl (congrArg (·.2.2) h.1)
    · exact .inl (congrArg (·.2.2) h.1)
    · rcases h with ⟨hv, -⟩ | ⟨fault, -, hv, -⟩
      · exact .inl (congrArg (·.2.2) hv)
      · exact .inr ⟨target, fault, congrArg (·.2.2) hv⟩
  rcases hf with hf | ⟨target, fault, hf⟩ <;> rw [hf] <;> rcases r with e | e <;> nofun

/-! ## Command lines -/

/-- the command word and what is given behind it say what is done with a tree, and where its stylesheet goes -/
theorem job?_tree {v : Verb} {given : Given} {path : String} {action : Action}
    (h : v.job? given = some (.tree path action)) :
    given.path = some path ∧
      (v = .check ∧ action = .check ∨
        v = .build ∧ action = .build (given.width.getD 2)
          (if given.screen then .screen else .file (given.output.getD (withScssExtension path)))) := by
  unfold Verb.job? at h
  split at h
  · cases h
  · rename_i hp
    cases h
    exact ⟨hp, .inl ⟨rfl, rfl⟩⟩
  · rename_i hp
    dsimp only at h
    split at h <;> rename_i ho hs <;> cases h <;> exact ⟨hp, .inr ⟨rfl, by simp [ho, hs, defaultWidth]⟩⟩
  · cases h

theorem run_of_request {args : List String} {i : Invocation} (h : request? args = some (.perform i)) (usual : Detail)
    (d : Disk) : run usual args d = i.run usual d := by
  unfold run
  rw [h]

/-- **All front ends agree.** Take any command line that asks for a tree to be checked or built. If the file cannot be
read, whatever the fault, or its source is rejected, the run exits with 1, shows nothing on the screen and leaves the
file system alone; and it is rejected exactly if asking for the text alone is, and alike. Otherwise the text at the
width asked for, and a line feed, goes to the screen or to one file, the one that was named or the one beside the
source, and nowhere if the tree is only checked; at width 2 it is the text alone. Neither asking for progress lines nor
what is usual changes the verdict or the file system. -/
theorem front_ends_agree {args : List String} {verbose : Bool} {path : String} {action : Action}
    (h : request? args = some (.perform ⟨verbose, .tree path action⟩)) (usual : Detail) (d : Disk) :
    (∀ fault, (∀ shown, proceed shown path action (.error fault) = .finished (.failed "" (.reading path fault))) ∧
      (d.read path = .error fault → Fails d (.reading path fault) (run usual args d))) ∧
    (∀ source, d.read path = .ok source →
      (∀ r, stylesheet source defaultIndent = .error r ↔ (run usual args d).1.failure = some (rejected path r)) ∧
      (∀ r, stylesheet source defaultIndent = .error r → Fails d (rejected path r) (run usual args d)) ∧
      ∀ text, stylesheet source defaultIndent = .ok text →
        ∃ text', stylesheet source (spaces action.width) = .ok text' ∧ Delivers d text' (run usual args d) action ∧
          (action.width = 2 → text' = text)) ∧
    (∃ options v given, Says args options v given ∧ given.path = some path ∧
      (v = .check ∧ action = .check ∨
        v = .build ∧ action = .build (given.width.getD 2)
          (if given.screen then .screen else .file (given.output.getD (withScssExtension path))))) ∧
    (∀ args' verbose' usual', request? args' = some (.perform ⟨verbose', .tree path action⟩) →
      (run usual' args' d).1.verdict = (run usual args d).1.verdict ∧ (run usual' args' d).2 = (run usual args d).2) ∧
    (verbose = false → request? ("-v" :: args) = some (.perform ⟨true, .tree path action⟩)) := by
  rw [run_of_request h]
  refine ⟨fun fault => ⟨?_, fun hd => ?_⟩, fun source hd => ?_, ?_, fun args' verbose' usual' h' => ?_, ?_⟩
  · intro shown
    rfl
  · exact run_of_failure verbose usual (by rw [hd]; rfl)
  · have hcompose := compose_eq path action.width source
    rw [← hd] at hcompose
    have hrejected : ∀ r, stylesheet source defaultIndent = .error r →
        Fails d (rejected path r) (Invocation.run ⟨verbose, .tree path action⟩ usual d) := by
      intro r hr
      rw [stylesheet_error_iff.1 hr] at hcompose
      exact run_of_failure verbose usual hcompose
    have haccepted : ∀ text, stylesheet source (spaces action.width) = .ok text →
        Delivers d text (Invocation.run ⟨verbose, .tree path action⟩ usual d) action := by
      intro text ht
      rw [ht] at hcompose
      exact run_of_text verbose usual hcompose
    refine ⟨fun r => ⟨fun hr => congrArg (·.2.2) (hrejected r hr).1, fun hf => ?_⟩, hrejected, fun text ht => ?_⟩
    · rcases hs : stylesheet source defaultIndent with r' | text
      · have hf' := congrArg (·.2.2) (hrejected r' hs).1
        simp only [Report.verdict, hf, Option.some.injEq, rejected_inj] at hf'
        rw [hf']
      · obtain ⟨text', ht'⟩ := stylesheet_ok_of_ok hs (spaces action.width)
        exact absurd hf ((haccepted text' ht').not_rejected path r)
    · obtain ⟨text', ht'⟩ := stylesheet_ok_of_ok ht (spaces action.width)
      refine ⟨text', ht', haccepted text' ht', fun hw => ?_⟩
      rw [hw, ← defaultIndent, ht] at ht'
      cases ht'
      rfl
  · obtain ⟨options, v, given, hsays, hj, -⟩ := requestFrom_says (request?_eq_perform.1 h)
    exact ⟨options, v, given, hsays, job?_tree hj⟩
  · rw [run_of_request h']
    exact run_alike verbose' usual' verbose usual _
  · rintro rfl
    exact request?_verbose h

/-- a rule with one declaration -/
def ruleSource : String :=
  "\x7b\"kind\":\"Rule\",\"selectors\":[\"a\"],\"declarations\":[" ++
    "\x7b\"kind\":\"Declaration\",\"property\":\"top\",\"value\":\"0\"\x7d]\x7d"

/-- a directory with the source of the rule and one that breaks off -/
def ruleDisk : Disk := ⟨[(["a.json"], .file ruleSource), (["b.json"], .file "\x7b")], []⟩

/-- the rule is built at width 4 into the file beside it; the other source is rejected, and nothing happens -/
theorem ruleDisk_built :
    Delivers ruleDisk "a \x7b\n    top: 0;\n\x7d" (run defaultDetail ["build", "a.json", "--indent=4"] ruleDisk)
      (.build 4 (.file "a.scss")) ∧
    Fails ruleDisk (.decoding "b.json" .malformed) (run .off ["-v", "check", "b.json"] ruleDisk) := by
  constructor
  · have hargs : request? ["build", "a.json", "--indent=4"] =
        some (.perform ⟨false, .tree "a.json" (.build 4 (.file "a.scss"))⟩) := by decide +kernel
    have hread : ruleDisk.read "a.json" = .ok ruleSource := rfl
    have hplain : stylesheet ruleSource defaultIndent = .ok "a \x7b\n  top: 0;\n\x7d" :=
      eq_ok_of_toOption (by decide +kernel)
    have hwide : stylesheet ruleSource (spaces 4) = .ok "a \x7b\n    top: 0;\n\x7d" :=
      eq_ok_of_toOption (by decide +kernel)
    obtain ⟨text, ht, hdelivers, -⟩ := ((front_ends_agree hargs defaultDetail ruleDisk).2.1 _ hread).2.2 _ hplain
    rw [Action.width, hwide] at ht
    cases ht
    exact hdelivers
  · have hargs : request? ["-v", "check", "b.json"] = some (.perform ⟨true, .tree "b.json" .check⟩) := by
      decide +kernel
    have hread : ruleDisk.read "b.json" = .ok "\x7b" := rfl
    exact ((front_ends_agree hargs .off ruleDisk).2.1 _ hread).2.1 (.source .malformed) rfl

end Command

end StyleTree
