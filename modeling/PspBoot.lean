import PspBoot.Image.Container.Layout
import PspBoot.Image.ParameterFile.Layout
import PspBoot.Session.Boot
import PspBoot.Session.Exchange
import PspBoot.Proofs.Chain.Outage
import PspBoot.Proofs.Chain.ShortAnswers
import PspBoot.Proofs.Storage.Directory
import PspBoot.Proofs.BlockStore.Ledger
import PspBoot.Proofs.BlockStore.DataFile
import PspBoot.Proofs.BlockStore.Traced
import PspBoot.Proofs.Chain.Custody
import PspBoot.Proofs.Chain.CrashConsistency
import PspBoot.Proofs.BlockStore.Damage
import PspBoot.Proofs.Chain.LostData
import PspBoot.Proofs.BlockStore.Steady
import PspBoot.Proofs.Source.RecentReads
import PspBoot.Proofs.Source.Retained
import PspBoot.Proofs.Chain.Retention
import PspBoot.Proofs.BlockStore.Neighbours
import PspBoot.Proofs.Chain.Isolation
import PspBoot.Proofs.Image.Container
import PspBoot.Proofs.Image.ShortHead
import PspBoot.Proofs.Session.Boot
import PspBoot.Proofs.Session.Exchange
import PspBoot.Proofs.Chain.ReadContract
import PspBoot.Proofs.Image.Survey
import PspBoot.Proofs.Locator.Components
import PspBoot.Proofs.Locator.GameDirectory
import PspBoot.Proofs.Image.InstalledGame
import PspBoot.Proofs.Session.GameDirectory
import PspBoot.Proofs.Image.ContainerLayout
import PspBoot.Proofs.Image.ContainerParts
import PspBoot.Proofs.Image.ParameterFile
import PspBoot.Proofs.Source.Attempts
import PspBoot.Proofs.Source.Rechecks
import PspBoot.Proofs.Session.Archive
import PspBoot.Proofs.Locator.Ancestors
import PspBoot.Proofs.Chain.Failures
import PspBoot.Proofs.Source.Twins
import PspBoot.Proofs.Source.Requests
import PspBoot.Proofs.Locator.Spelling
import PspBoot.Proofs.Image.Spelling
import PspBoot.Proofs.Session.Spelling
import PspBoot.Proofs.Source.Surplus
import PspBoot.Proofs.Chain.Surplus
import PspBoot.Proofs.Chain.Factories
import PspBoot.Proofs.Backoff
