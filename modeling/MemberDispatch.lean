import MemberDispatch.Delegate
import MemberDispatch.Invoke.ByName
import MemberDispatch.Proofs.Hierarchy.Unwrapping
import MemberDispatch.Proofs.Hierarchy.Worklist
import MemberDispatch.Proofs.Invoke.Contracts
import MemberDispatch.Proofs.Invoke.Delegate
import MemberDispatch.Proofs.Invoke.GeneratedArguments
import MemberDispatch.Proofs.Invoke.LeadingContext
import MemberDispatch.Proofs.Invoke.NearestOverride
import MemberDispatch.Proofs.Invoke.Progress
import MemberDispatch.Proofs.Invoke.Refusal
import MemberDispatch.Proofs.Invoke.Session
import MemberDispatch.Proofs.Invoke.Turns
import MemberDispatch.Proofs.Invoke.TypeSafety
import MemberDispatch.Proofs.LogFilter.Merging
import MemberDispatch.Proofs.Resolve.Completeness
import MemberDispatch.Proofs.Resolve.ModeAgreement
import MemberDispatch.Proofs.Resolve.Nearest
import MemberDispatch.Proofs.Resolve.PublicSearch
import MemberDispatch.Proofs.Resolve.Representative
import MemberDispatch.Proofs.Resolve.SpecificityOrder
import MemberDispatch.Proofs.Resolve.Specified
import MemberDispatch.Proofs.Resolve.Unambiguous
import MemberDispatch.Proofs.Resolve.UniqueHandler
import MemberDispatch.Proofs.Settings.Acceptance
import MemberDispatch.Proofs.Settings.Defaults
import MemberDispatch.Proofs.Store.Coherent
import MemberDispatch.Proofs.Store.Renaming
import MemberDispatch.Proofs.Value.Integers
import MemberDispatch.Settings.Decode
import MemberDispatch.Settings.Encode
import MemberDispatch.Settings.Schema
import MemberDispatch.Store.Platform
import MemberDispatch.Toml.Document
import MemberDispatch.TypeName
import MemberDispatch.Workspace.Discovery
