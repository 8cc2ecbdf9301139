import ParserKit.Proofs.CommandLine.Debug
import ParserKit.Proofs.Json.Reading
import ParserKit.Proofs.Value.Spelling

namespace ParserKit

namespace Json

theorem Derives.data {w : Input} {v : Value} (hw : Derives w v) : v.Data := by
  -- One motive for each layer: what is said of a list of values or members is said of each.
  refine @Derives.rec (fun _ v _ => v.Data) (fun _ vs _ => ∀ v ∈ vs, v.Data)
    (fun _ members _ => ∀ m ∈ members, m.2.Data) (fun _ v _ => v.Data) (fun _ m _ => m.2.Data)
    ?null ?true ?false ?integer ?string ?emptyArray ?array ?emptyObject ?object
    ?lastItem ?consItem ?lastMember ?consMember ?spaced ?member _ _ hw
  case null => exact .nothing
  case true => exact .bool _
  case false => exact .bool _
  case integer => exact fun _ => .int _
  case string => exact fun _ => .text _
  case emptyArray => exact fun _ => .list fun _ hv => absurd hv List.not_mem_nil
  case array => exact fun _ ih => .list ih
  case emptyObject => exact fun _ => .dict fun _ he => absurd he List.not_mem_nil
  case object =>
    intro _ members entries _ hentries ih
    refine .dict fun entry hentry => ih entry ?_
    obtain ⟨before, after, rfl, _⟩ := hentries.values entry hentry
    exact List.mem_append_right before List.mem_cons_self
  case lastItem => exact fun _ ih => List.forall_mem_singleton.2 ih
  case consItem => exact fun _ _ ihu ihv => List.forall_mem_cons.2 ⟨ihu, ihv⟩
  case lastMember => exact fun _ ih => List.forall_mem_singleton.2 ih
  case consMember => exact fun _ _ ihu ihv => List.forall_mem_cons.2 ⟨ihu, ihv⟩
  case spaced => exact fun _ _ _ ih => ih
  case member => exact fun _ _ ih => ih

theorem data_of_decode {text : String} {v : Value} (h : decode text = .ok v) : v.Data := by
  obtain ⟨_, _, _, _, _, _, _, hw, _⟩ := exists_accepted_of_decode h
  exact hw.data

end Json

namespace CommandLine

variable {settings : Settings} {v w : Value}

def outputOf : Value → String
  | .text s => s
  | v => v.spelling

/-- A text which is the written form of a value of another type. -/
def Spells (v w : Value) : Prop := v = .text w.spelling ∧ ∀ a, w ≠ .text a

theorem printed_of_writable {limit : DigitLimit} (h : v.writable limit = true) :
    printed limit v = .ok (outputOf v) := by
  cases v with
  | text a => rfl
  | _ => exact Value.display_of_writable h

theorem printed_of_not_writable {limit : DigitLimit} (h : v.writable limit = false) :
    printed limit v = .error .notDecimal := by
  cases v with
  | text a => cases h
  | _ => exact Value.display_of_not_writable h

theorem outputOf_of_ne_text (h : ∀ a, v ≠ .text a) : outputOf v = v.spelling := by
  cases v with
  | text a => exact absurd rfl (h a)
  | _ => rfl

theorem outputOf_eq_iff (hv : v.Data) (hw : w.Data) :
    outputOf v = outputOf w ↔ v = w ∨ Spells v w ∨ Spells w v := by
  constructor
  · intro h
    by_cases htv : ∃ a, v = .text a
    · obtain ⟨a, rfl⟩ := htv
      by_cases htw : ∃ b, w = .text b
      · obtain ⟨b, rfl⟩ := htw
        exact .inl (congrArg Value.text h)
      · rw [not_exists] at htw
        rw [outputOf_of_ne_text htw] at h
        exact .inr (.inl ⟨congrArg Value.text h, htw⟩)
    · rw [not_exists] at htv
      rw [outputOf_of_ne_text htv] at h
      by_cases htw : ∃ b, w = .text b
      · obtain ⟨b, rfl⟩ := htw
        exact .inr (.inr ⟨congrArg Value.text h.symm, htv⟩)
      · rw [not_exists] at htw
        rw [outputOf_of_ne_text htw] at h
        exact .inl (hv.spelling_inj hw h)
  · rintro (rfl | ⟨rfl, hw⟩ | ⟨rfl, hv⟩)
    · rfl
    · exact (outputOf_of_ne_text hw).symm
    · exact outputOf_of_ne_text hv

theorem run_command (settings : Settings) {c : Command} {text : String}
    (htext : text.toList.head? ≠ some '-') :
    runWith settings [c.name, text] = .ofResult settings.limit (c.function text) := by
  rw [runWith, ofArguments_pair htext]
  exact Request.run_plain settings c text

theorem run_json {text : String} (htext : text.toList.head? ≠ some '-')
    (h : Json.decode text = .ok v) (hv : v.writable settings.limit = true) :
    runWith settings [Command.json.name, text] = .exited 0 (outputOf v ++ "\n") "" := by
  rw [run_command settings htext, Command.function, h, Ending.ofResult, printed_of_writable hv]

theorem run_json_of_not_writable {text : String} (htext : text.toList.head? ≠ some '-')
    (h : Json.decode text = .ok v) (hv : v.writable settings.limit = false) :
    runWith settings [Command.json.name, text] = .crashed .notDecimal := by
  rw [run_command settings htext, Command.function, h, Ending.ofResult, printed_of_not_writable hv]

/-- A JSON text whose value has a number beyond the limit on digits ends in a fault.  The output of
two other texts is the same only if they denote the same value, or if one denotes a text which spells
the value of the other. -/
theorem json_output_eq_iff (settings : Settings) {text text' : String} {v v' : Value}
    (htext : text.toList.head? ≠ some '-') (htext' : text'.toList.head? ≠ some '-')
    (h : Json.decode text = .ok v) (h' : Json.decode text' = .ok v') :
    (v.writable settings.limit = false →
      runWith settings [Command.json.name, text] = .crashed .notDecimal) ∧
    (v.writable settings.limit = true → v'.writable settings.limit = true →
      ∃ out out', runWith settings [Command.json.name, text] = .exited 0 out "" ∧
        runWith settings [Command.json.name, text'] = .exited 0 out' "" ∧
        (out = out' ↔ v = v' ∨ Spells v v' ∨ Spells v' v)) := by
  refine ⟨run_json_of_not_writable htext h, fun hv hv' =>
    ⟨_, _, run_json htext h hv, run_json htext' h' hv', ?_⟩⟩
  rw [← outputOf_eq_iff (Json.data_of_decode h) (Json.data_of_decode h')]
  constructor
  · intro hout
    have hchars := congrArg String.toList hout
    rw [String.toList_append, String.toList_append] at hchars
    exact String.toList_injective (List.append_cancel_right hchars)
  · intro hprinted
    rw [hprinted]

theorem json_output_eq_iff_blanks :
    ∃ out out', runWith .standard ["json", "[]"] = .exited 0 out "" ∧
      runWith .standard ["json", "[ ]"] = .exited 0 out' "" ∧ out = out' := by
  have h : Json.decode "[]" = .ok (.list []) :=
    Json.decode_of_derives (.emptyArray (w := []) (List.forall_mem_nil _))
  have h' : Json.decode "[ ]" = .ok (.list []) :=
    Json.decode_of_derives (.emptyArray (w := [' ']) (List.forall_mem_singleton.2 rfl))
  obtain ⟨out, out', hout, hout', heq⟩ :=
    (json_output_eq_iff .standard (by decide) (by decide) h h').2 rfl rfl
  exact ⟨out, out', hout, hout', heq.2 (.inl rfl)⟩

theorem json_output_ambiguous :
    "null".toList.head? ≠ some '-' ∧ "\x22None\x22".toList.head? ≠ some '-' ∧
      Json.decode "null" = .ok .nothing ∧ Json.decode "\x22None\x22" = .ok (.text "None") ∧
      runWith .standard ["json", "null"] = .exited 0 "None\n" "" ∧
      runWith .standard ["json", "\x22None\x22"] = .exited 0 "None\n" "" ∧
      Value.nothing ≠ .text "None" := by
  have h : Json.decode "null" = .ok .nothing := Json.decode_of_derives .null
  have h' : Json.decode "\x22None\x22" = .ok (.text "None") :=
    Json.decode_of_derives (.string (.mk (w := "None".toList) (by decide)))
  exact ⟨by decide, by decide, h, h', run_json (by decide) h rfl, run_json (by decide) h' rfl, nofun⟩

end CommandLine

end ParserKit
