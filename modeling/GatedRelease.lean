import GatedRelease.Json.Word
import GatedRelease.Main
import GatedRelease.Proofs.CommandLine.ExitCode
import GatedRelease.Proofs.Config.Destination
import GatedRelease.Proofs.Plan.HandOver
import GatedRelease.Proofs.Plan.Order
import GatedRelease.Proofs.Run.Chaining
import GatedRelease.Proofs.Run.Chronicle
import GatedRelease.Proofs.Run.Extension
import GatedRelease.Proofs.Secrecy.Deferral
import GatedRelease.Proofs.Staging.Containment
import GatedRelease.Proofs.Publish.Agreement
import GatedRelease.Proofs.Digest.Identity
import GatedRelease.Proofs.Build.Freshness
import GatedRelease.Proofs.Staging.Success
import GatedRelease.Proofs.Digest.Stages
import GatedRelease.Proofs.Config.RoundTrip
import GatedRelease.Proofs.CommandLine.Preview
import GatedRelease.Proofs.Git.Checkout
import GatedRelease.Proofs.Text.Lines
import GatedRelease.Proofs.Plan.Calls
